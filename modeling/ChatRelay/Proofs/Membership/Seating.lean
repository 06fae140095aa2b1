import ChatRelay.Membership.Room
import Mathlib.Data.List.Nodup
import Mathlib.Data.List.Perm.Subperm
import Mathlib.Tactic.ByContra

/-!
# The seats of a room

The slots of a room stand for a list of seats, first member first. `HasSeats` says that a room's
slots are threaded along such a list in both directions, that no slot is occupied outside it, that
the vacant slots are exactly the free ones, and that the count is its length. A room without
members has no seats, a channel that is taken in gets the first seat, and a seat that is given up
closes the gap between its neighbours, whatever the order in which slots are used again.

Nothing here says that a channel has one seat only: a room takes in the same channel twice if it is
told to. Which channel has which seat is the roster's business.
-/

namespace ChatRelay

/-- A list with one more entry, entry by entry. -/
theorem getElem?_append_singleton {α : Type} (xs : List α) (x : α) (i : Nat) :
    (xs ++ [x])[i]? = if i = xs.length then some x else xs[i]? := by
  rcases Nat.lt_trichotomy i xs.length with hi | hi | hi
  · rw [List.getElem?_append_left hi, if_neg (Nat.ne_of_lt hi)]
  · rw [hi, List.getElem?_concat_length, if_pos rfl]
  · have hlength : (xs ++ [x]).length ≤ i := by
      rw [List.length_append, List.length_singleton]
      omega
    rw [if_neg (Nat.ne_of_gt hi), List.getElem?_eq_none hlength,
      List.getElem?_eq_none (Nat.le_of_lt hi)]

namespace Room

/-- A slot and the channel in it. -/
structure Seat where
  slot : Nat
  channel : ChannelRef
  deriving DecidableEq, Repr

variable {nodes nodes' : List (Option Node)} {r : Room} {c : ChannelRef}

/-! ## Occupied slots under changes -/

theorem node?_set (nodes : List (Option Node)) (slot k : Nat) (node : Option Node) :
    node? (nodes.set slot node) k =
      if k = slot ∧ slot < nodes.length then node else node? nodes k := by
  unfold node?
  rw [List.getElem?_set]
  by_cases hk : slot = k
  · subst hk
    by_cases hl : slot < nodes.length
    · simp [hl]
    · simp [hl]
  · simp [hk, Ne.symm hk]

theorem node?_append_singleton (nodes : List (Option Node)) (node : Option Node) (k : Nat) :
    node? (nodes ++ [node]) k = if k = nodes.length then node else node? nodes k := by
  unfold node?
  rw [getElem?_append_singleton]
  split <;> rfl

theorem node?_modifyNode (nodes : List (Option Node)) (slot : Option Nat) (f : Node → Node)
    (k : Nat) :
    node? (modifyNode nodes slot f) k =
      if slot = some k then (node? nodes k).map f else node? nodes k := by
  cases slot with
  | none => simp [modifyNode]
  | some slot =>
    unfold node? modifyNode
    rw [List.getElem?_modify]
    by_cases hk : slot = k
    · subst hk
      simp only [if_true]
      cases nodes[slot]? with
      | none => rfl
      | some node => simp
    · simp only [if_neg hk, Option.some.injEq]
      simp

theorem length_modifyNode (nodes : List (Option Node)) (slot : Option Nat) (f : Node → Node) :
    (modifyNode nodes slot f).length = nodes.length := by
  cases slot with
  | none => rfl
  | some slot => exact List.length_modify ..

theorem lt_length_of_node? {k : Nat} {node : Node} (h : node? nodes k = some node) :
    k < nodes.length := by
  by_contra hk
  have hnone : nodes[k]? = none := List.getElem?_eq_none (Nat.le_of_not_lt hk)
  rw [node?, hnone] at h
  cases h

/-! ## Threads -/

/-- The slots of a run of seats are threaded in order: the first one names `before` as the slot in
front of it, the last one names `after` as the slot behind it, and all others name each other. -/
def Threaded (nodes : List (Option Node)) : Option Nat → List Seat → Option Nat → Prop
  | _, [], _ => True
  | before, s :: rest, after =>
    node? nodes s.slot = some ⟨s.channel, before, (rest.head?.map Seat.slot).or after⟩ ∧
      Threaded nodes (some s.slot) rest after

theorem Threaded.node?_of_mem {before after : Option Nat} {seats : List Seat} {s : Seat}
    (h : Threaded nodes before seats after) (hs : s ∈ seats) :
    ∃ node, node? nodes s.slot = some node ∧ node.channel = s.channel := by
  induction seats generalizing before with
  | nil => cases hs
  | cons s' rest ih =>
    rcases List.mem_cons.mp hs with rfl | hs
    · exact ⟨_, h.1, rfl⟩
    · exact ih h.2 hs

/-- A thread only depends on its own slots. -/
theorem Threaded.congr {before after : Option Nat} {seats : List Seat}
    (h : Threaded nodes before seats after)
    (hn : ∀ s ∈ seats, node? nodes' s.slot = node? nodes s.slot) :
    Threaded nodes' before seats after := by
  induction seats generalizing before with
  | nil => trivial
  | cons s rest ih =>
    refine ⟨?_, ih h.2 fun t ht => hn t (List.mem_cons_of_mem _ ht)⟩
    rw [hn s List.mem_cons_self]
    exact h.1

theorem threaded_append {before after : Option Nat} {front back : List Seat} :
    Threaded nodes before (front ++ back) after ↔
      Threaded nodes before front ((back.head?.map Seat.slot).or after) ∧
        Threaded nodes ((front.getLast?.map Seat.slot).or before) back after := by
  induction front generalizing before with
  | nil => simp [Threaded]
  | cons s rest ih =>
    have hlast : ((s :: rest).getLast?.map Seat.slot).or before =
        (rest.getLast?.map Seat.slot).or (some s.slot) := by
      rw [List.getLast?_cons]
      cases rest.getLast? <;> rfl
    have hhead : (((rest ++ back).head?).map Seat.slot).or after =
        (rest.head?.map Seat.slot).or ((back.head?.map Seat.slot).or after) := by
      cases rest <;> rfl
    simp only [List.cons_append, Threaded, ih, hlast, hhead, and_assoc]

/-- The slot behind the last seat is changed where the last seat is. -/
theorem Threaded.relink_after {before after : Option Nat} {seats : List Seat}
    (h : Threaded nodes before seats after) (hnd : (seats.map Seat.slot).Nodup)
    (after' : Option Nat) :
    Threaded (modifyNode nodes (seats.getLast?.map Seat.slot) fun n => { n with next := after' })
      before seats after' := by
  rcases List.eq_nil_or_concat seats with rfl | ⟨front, s, rfl⟩
  · trivial
  · rw [List.concat_eq_append] at h hnd ⊢
    obtain ⟨hfront, hs, -⟩ := threaded_append.mp h
    simp only [List.getLast?_append, List.getLast?_singleton, Option.some_or, Option.map_some]
    have hne : ∀ t ∈ front, some s.slot ≠ some t.slot := by
      intro t ht he
      rw [List.map_append, List.nodup_append] at hnd
      have hlast : s.slot ∈ [s].map Seat.slot := by simp
      exact hnd.2.2 _ (List.mem_map_of_mem ht) s.slot hlast (Option.some.inj he).symm
    refine threaded_append.mpr ⟨hfront.congr fun t ht => ?_, ?_, trivial⟩
    · rw [node?_modifyNode, if_neg (hne t ht)]
    · rw [node?_modifyNode, if_pos rfl, hs]
      simp

/-- The slot in front of the first seat is changed where the first seat is. -/
theorem Threaded.relink_before {before after : Option Nat} {seats : List Seat}
    (h : Threaded nodes before seats after) (hnd : (seats.map Seat.slot).Nodup)
    (before' : Option Nat) :
    Threaded (modifyNode nodes (seats.head?.map Seat.slot) fun n => { n with prev := before' })
      before' seats after := by
  cases seats with
  | nil => trivial
  | cons s rest =>
    rw [List.map_cons, List.nodup_cons] at hnd
    refine ⟨?_, h.2.congr fun t ht => ?_⟩
    · rw [node?_modifyNode, if_pos (by simp), h.1]
      rfl
    · rw [node?_modifyNode, if_neg]
      intro he
      exact hnd.1 (List.mem_map.mpr ⟨t, ht, (Option.some.inj he).symm⟩)

/-- A seat is taken out of a thread by vacating its slot and joining its neighbours. -/
theorem Threaded.unlink {slot : Nat} {front back : List Seat}
    (h : Threaded nodes none (front ++ ⟨slot, c⟩ :: back) none)
    (hnd : ((front ++ ⟨slot, c⟩ :: back).map Seat.slot).Nodup) :
    Threaded
      (modifyNode
        (modifyNode (nodes.set slot none) (front.getLast?.map Seat.slot) fun n =>
          { n with next := back.head?.map Seat.slot })
        (back.head?.map Seat.slot) fun n => { n with prev := front.getLast?.map Seat.slot })
      none (front ++ back) none := by
  obtain ⟨hfront, hslot, hback⟩ := threaded_append.mp h
  rw [List.map_append, List.map_cons, List.nodup_append, List.nodup_cons] at hnd
  obtain ⟨hndf, ⟨hslotb, hndb⟩, hdisj⟩ := hnd
  have hvacated : ∀ k, k ≠ slot → node? (nodes.set slot none) k = node? nodes k := by
    intro k hk
    rw [node?_set, if_neg (fun he => hk he.1)]
  have hlast : ∀ t ∈ back, front.getLast?.map Seat.slot ≠ some t.slot := by
    intro t ht he
    obtain ⟨s, hs, hst⟩ := Option.map_eq_some_iff.mp he
    exact hdisj _ (List.mem_map_of_mem (List.mem_of_getLast? hs)) _
      (List.mem_cons_of_mem _ (List.mem_map_of_mem ht)) hst
  have hfirst : ∀ s ∈ front, back.head?.map Seat.slot ≠ some s.slot := by
    intro s hs he
    obtain ⟨t, ht, hst⟩ := Option.map_eq_some_iff.mp he
    exact hdisj _ (List.mem_map_of_mem hs) _
      (List.mem_cons_of_mem _ (List.mem_map_of_mem (List.mem_of_head? ht))) hst.symm
  refine threaded_append.mpr ⟨?_, ?_⟩
  · rw [Option.or_none]
    have hf := (hfront.congr fun s hs => hvacated _ fun he =>
      hdisj _ (List.mem_map_of_mem hs) slot List.mem_cons_self he).relink_after hndf
        (back.head?.map Seat.slot)
    exact hf.congr fun s hs => by rw [node?_modifyNode _ (back.head?.map _), if_neg (hfirst s hs)]
  · rw [Option.or_none]
    have hb : Threaded (nodes.set slot none) (some slot) back none :=
      hback.congr fun t ht => hvacated _ fun he => hslotb (List.mem_map.mpr ⟨t, ht, he⟩)
    refine (hb.congr fun t ht => ?_).relink_before hndb (front.getLast?.map Seat.slot)
    rw [node?_modifyNode, if_neg (hlast t ht)]

theorem Threaded.walk_eq {before : Option Nat} {seats : List Seat} {steps : Nat}
    (h : Threaded nodes before seats none) (hs : seats.length ≤ steps) :
    walk nodes steps (seats.head?.map Seat.slot) = seats.map Seat.channel := by
  induction seats generalizing before steps with
  | nil => cases steps <;> rfl
  | cons s rest ih =>
    cases steps with
    | zero => simp at hs
    | succ steps =>
      have hrest := ih h.2 (Nat.le_of_succ_le_succ hs)
      simp only [List.head?_cons, Option.map_some, walk, h.1, List.map_cons]
      rw [Option.or_none, hrest]

/-! ## Rooms and their seats -/

/-- The seats of a room, first member first. -/
structure HasSeats (r : Room) (seats : List Seat) : Prop where
  threaded : Threaded r.nodes none seats none
  head : r.head = seats.head?.map Seat.slot
  nodup : (seats.map Seat.slot).Nodup
  /-- No slot outside the list is occupied. -/
  occupied : ∀ k node, node? r.nodes k = some node → k ∈ seats.map Seat.slot
  free_nodup : r.free.Nodup
  mem_free : ∀ k, k ∈ r.free ↔ k < r.nodes.length ∧ node? r.nodes k = none
  online : r.online = seats.length
  retired : r.isDropped = true → seats = []

namespace HasSeats

variable {seats front back : List Seat}

theorem slot_lt (h : r.HasSeats seats) {s : Seat} (hs : s ∈ seats) : s.slot < r.nodes.length := by
  obtain ⟨node, hn, -⟩ := h.threaded.node?_of_mem hs
  exact lt_length_of_node? hn

/-- A seat is its slot and the channel that the slot names. -/
theorem mem_iff (h : r.HasSeats seats) {s : Seat} :
    s ∈ seats ↔ ∃ node, node? r.nodes s.slot = some node ∧ node.channel = s.channel := by
  refine ⟨fun hs => h.threaded.node?_of_mem hs, ?_⟩
  rintro ⟨node, hn, hc⟩
  obtain ⟨t, ht, hslot⟩ := List.mem_map.mp (h.occupied _ _ hn)
  obtain ⟨node', hn', hc'⟩ := h.threaded.node?_of_mem ht
  have hnode : node' = node := by
    rw [hslot, hn] at hn'
    exact (Option.some.inj hn').symm
  have heq : t = s := by
    cases t
    cases s
    simp_all
  rw [← heq]
  exact ht

/-- There are no more seats than slots, which bounds the walk along them. -/
theorem length_le (h : r.HasSeats seats) : seats.length ≤ r.nodes.length := by
  have hsub : (seats.map Seat.slot) ⊆ List.range r.nodes.length := by
    intro k hk
    obtain ⟨s, hs, rfl⟩ := List.mem_map.mp hk
    exact List.mem_range.mpr (h.slot_lt hs)
  simpa using (h.nodup.subperm hsub).length_le

theorem members_eq (h : r.HasSeats seats) : r.members = seats.map Seat.channel := by
  rw [members, h.head]
  exact h.threaded.walk_eq h.length_le

theorem new (id : RoomId) : (Room.new id).HasSeats [] where
  threaded := trivial
  head := rfl
  nodup := List.nodup_nil
  occupied k node h := by simp [Room.new, node?] at h
  free_nodup := List.nodup_nil
  mem_free k := by simp [Room.new]
  online := rfl
  retired := fun _ => rfl

/-! ### Taking a channel in -/

/-- A node goes to a slot that was vacant, and nothing else is occupied or vacated by it. -/
theorem alloc (h : r.HasSeats seats) (node : Node) :
    ∃ slot nodes free, r.alloc node = (slot, { r with nodes, free }) ∧
      node? r.nodes slot = none ∧
      (∀ k, node? nodes k = if k = slot then some node else node? r.nodes k) ∧
      free.Nodup ∧ ∀ k, k ∈ free ↔ k < nodes.length ∧ node? nodes k = none := by
  unfold Room.alloc
  cases hfree : r.free with
  | nil =>
    have hvacant : node? r.nodes r.nodes.length = none := by simp [node?]
    refine ⟨r.nodes.length, r.nodes ++ [some node], [], rfl, hvacant,
      node?_append_singleton _ _, List.nodup_nil, fun k => ?_⟩
    have hk := h.mem_free k
    rw [hfree] at hk
    simp only [node?_append_singleton, List.length_append, List.length_singleton]
    split
    next he => simp
    next he =>
      have hlt : k < r.nodes.length + 1 ↔ k < r.nodes.length := by omega
      rw [hk, hlt]
  | cons slot free =>
    have hmem : slot ∈ r.free := by
      rw [hfree]
      exact List.mem_cons_self
    have hslot := (h.mem_free slot).mp hmem
    have hnd := h.free_nodup
    rw [hfree, List.nodup_cons] at hnd
    have hnode : ∀ k, node? (r.nodes.set slot (some node)) k =
        if k = slot then some node else node? r.nodes k := by
      intro k
      rw [node?_set]
      simp [hslot.1]
    refine ⟨_, _, _, rfl, hslot.2, hnode, hnd.2, fun k => ?_⟩
    have hk := h.mem_free k
    rw [hfree, List.mem_cons] at hk
    simp only [hnode, List.length_set]
    by_cases he : k = slot
    · simp [he, hnd.1]
    · simp only [he, false_or] at hk
      simp [he, hk]

/-- A room that is not retired takes a channel in, and gives it the first seat. -/
theorem put (h : r.HasSeats seats) (hd : r.isDropped = false) (c : ChannelRef) :
    ∃ slot r', r.put c = .ok (slot, r') ∧ r'.HasSeats (⟨slot, c⟩ :: seats) ∧
      r'.id = r.id ∧ r'.isDropped = false := by
  obtain ⟨slot, nodes, free, halloc, hvacant, hnode, hfree, hmem⟩ := h.alloc ⟨c, none, r.head⟩
  have hfresh : ∀ s ∈ seats, s.slot ≠ slot := by
    rintro s hs rfl
    obtain ⟨node, hn, -⟩ := h.threaded.node?_of_mem hs
    rw [hvacant] at hn
    cases hn
  have hhead : r.head ≠ some slot := by
    rw [h.head]
    intro he
    obtain ⟨s, hs, hslot⟩ := Option.map_eq_some_iff.mp he
    exact hfresh s (List.mem_of_head? hs) hslot
  have hthread : Threaded nodes none seats none :=
    h.threaded.congr fun s hs => by rw [hnode, if_neg (hfresh s hs)]
  have hput : r.put c = .ok (slot, { r with
      nodes := modifyNode nodes r.head fun node => { node with prev := some slot }
      free, head := some slot, online := r.online + 1 }) := by
    simp only [Room.put, hd, halloc, Bool.false_eq_true, if_false]
  refine ⟨slot, _, hput, ?_, rfl, hd⟩
  constructor
  case threaded =>
    refine ⟨?_, ?_⟩
    · rw [node?_modifyNode, if_neg hhead, hnode, if_pos rfl, h.head, Option.or_none]
    · rw [h.head]
      exact hthread.relink_before h.nodup (some slot)
  case head => rfl
  case nodup =>
    refine List.nodup_cons.mpr ⟨?_, h.nodup⟩
    intro hs
    obtain ⟨s, hs, hslot⟩ := List.mem_map.mp hs
    exact hfresh s hs hslot
  case occupied =>
    intro k node hn
    rw [List.map_cons, List.mem_cons]
    rw [node?_modifyNode, hnode] at hn
    by_cases hk : k = slot
    · exact .inl hk
    · right
      rw [if_neg hk] at hn
      cases hold : node? r.nodes k with
      | none => simp [hold] at hn
      | some old => exact h.occupied k old hold
  case free_nodup => exact hfree
  case mem_free =>
    intro k
    have hnone : node? (modifyNode nodes r.head fun n => { n with prev := some slot }) k = none ↔
        node? nodes k = none := by
      rw [node?_modifyNode]
      split <;> simp
    rw [length_modifyNode, hnone]
    exact hmem k
  case online => rw [List.length_cons, h.online]
  case retired => simp [hd]

/-! ### Giving a seat up -/

/-- A seat that is given up closes the gap between its neighbours; the room is retired with its
last seat. -/
theorem unlink? {slot : Nat} (h : r.HasSeats (front ++ ⟨slot, c⟩ :: back)) :
    ∃ r', r.unlink? slot c = some r' ∧ r'.HasSeats (front ++ back) ∧ r'.id = r.id ∧
      (r'.isDropped = true ↔ front ++ back = []) := by
  obtain ⟨-, hslot, -⟩ := threaded_append.mp h.threaded
  rw [Option.or_none, Option.or_none] at hslot
  have hnd := h.nodup
  rw [List.map_append, List.map_cons, List.nodup_middle, List.nodup_cons,
    ← List.map_append] at hnd
  have hlt : slot < r.nodes.length := lt_length_of_node? hslot
  have honline : r.online = (front ++ back).length + 1 := by
    rw [h.online, List.length_append, List.length_append, List.length_cons, Nat.add_assoc]
  have hdropped : r.isDropped = false := by
    cases hd : r.isDropped with
    | false => rfl
    | true =>
      have hnil := h.retired hd
      simp at hnil
  let nodes := modifyNode
    (modifyNode (r.nodes.set slot none) (front.getLast?.map Seat.slot) fun n =>
      { n with next := back.head?.map Seat.slot })
    (back.head?.map Seat.slot) fun n => { n with prev := front.getLast?.map Seat.slot }
  have hnodes : ∀ k, (node? nodes k).isSome = true ↔
      (node? r.nodes k).isSome = true ∧ k ≠ slot := by
    intro k
    have hset : node? (r.nodes.set slot none) k = if k = slot then none else node? r.nodes k := by
      rw [node?_set]
      simp [hlt]
    simp only [nodes, node?_modifyNode, hset]
    split <;> split <;> split <;> simp_all
  have hlength : nodes.length = r.nodes.length := by
    simp only [nodes, length_modifyNode, List.length_set]
  have hunlink : r.unlink? slot c = some { r with
      nodes
      free := slot :: r.free
      head := if (front.getLast?.map Seat.slot).isSome then r.head else back.head?.map Seat.slot
      online := r.online - 1
      isDropped := r.isDropped || r.online == 1 } := by
    simp only [Room.unlink?, hslot, if_true, nodes]
  have hempty : front ++ back = [] ↔ r.online = 1 := by
    rw [honline, ← List.length_eq_zero_iff]
    omega
  refine ⟨_, hunlink, ?_, rfl, ?_⟩
  · constructor
    case threaded => exact h.threaded.unlink h.nodup
    case head =>
      rw [h.head]
      cases front with
      | nil => rfl
      | cons s rest => simp
    case nodup => exact hnd.2
    case occupied =>
      intro k node hn
      have hsome : (node? nodes k).isSome = true := by
        change node? nodes k = some node at hn
        rw [hn, Option.isSome_some]
      obtain ⟨hk, hne⟩ := (hnodes k).mp hsome
      obtain ⟨old, hold⟩ := Option.isSome_iff_exists.mp hk
      have hmem := h.occupied k old hold
      simp only [List.map_append, List.map_cons, List.mem_append, List.mem_cons] at hmem ⊢
      tauto
    case free_nodup =>
      refine List.nodup_cons.mpr ⟨?_, h.free_nodup⟩
      intro hf
      rw [h.mem_free, hslot] at hf
      cases hf.2
    case mem_free =>
      intro k
      rw [List.mem_cons, h.mem_free, hlength, ← Option.not_isSome_iff_eq_none,
        ← Option.not_isSome_iff_eq_none, hnodes]
      by_cases hk : k = slot
      · simp [hk, hlt]
      · simp [hk]
    case online => rw [honline, Nat.add_sub_cancel]
    case retired =>
      intro hd
      rw [hdropped, Bool.false_or, beq_iff_eq] at hd
      exact hempty.mpr hd
  · rw [hempty, hdropped, Bool.false_or, beq_iff_eq]

end HasSeats

end Room

end ChatRelay
