import ChatRelay.Json.Walk
import ChatRelay.Proofs.Json.Spelling

/-!
# Values of any shape

A value that nobody asked for may be of any shape and nest without bound (`IsValue`). It is passed
over whole, and nothing behind it is touched (`IsValue.skip_append`). The proof follows the
automaton: inside a bracket the value is passed over like outside of it, and the walk goes on with
the separator that is due there.
-/

namespace ChatRelay.Json

variable {ts us rest v : List Token} {t u : Token} {stack : List Container}

/-- Groups of tokens, each behind a comma. -/
def behindCommas (groups : List (List Token)) : List Token :=
  groups.flatMap fun group => .comma :: group

@[simp] theorem behindCommas_cons (group : List Token) (groups : List (List Token)) :
    behindCommas (group :: groups) = .comma :: group ++ behindCommas groups :=
  List.flatMap_cons

theorem tail_behindCommas_cons (group : List Token) (groups : List (List Token)) :
    (behindCommas (group :: groups)).tail = group ++ behindCommas groups := rfl

/-- The tokens are a value, and nothing more is said of it: its texts may lack content, and its
numbers may have any size. -/
inductive IsValue : List Token → Prop
  | null : IsValue [.null]
  | bool (value : Bool) : IsValue [.bool value]
  | number (value : Number) : IsValue [.number value]
  | text (content : Option String) : IsValue [.text content]
  | array (items : List (List Token)) (h : ∀ v ∈ items, IsValue v) :
      IsValue (.beginArray :: ((behindCommas items).tail ++ [.endArray]))
  | object (members : List (Option String × List Token)) (h : ∀ m ∈ members, IsValue m.2) :
      IsValue (.beginObject ::
        ((behindCommas (members.map fun m => .text m.1 :: .colon :: m.2)).tail ++ [.endObject]))

/-! ## Passing over -/

/-- The walk behind a value that stands inside of brackets. -/
def resume (stack : List Container) (rest : List Token) : Except Flaw (List Token) :=
  match Step.complete stack with
  | .more due stack => walk .skipping due stack rest
  | .finished => .ok rest
  | .failed flaw => .error flaw

/-- The tokens are passed over wherever a value is due. -/
def IsPassed (v : List Token) : Prop :=
  ∀ stack rest, walk .skipping .value stack (v ++ rest) = resume stack rest

theorem walk_items {items : List (List Token)} (h : ∀ v ∈ items, IsPassed v) :
    walk .skipping .separator (.array :: stack) (behindCommas items ++ .endArray :: rest) =
      resume stack rest := by
  induction items with
  | nil => rfl
  | cons v items ih =>
    obtain ⟨hv, hitems⟩ := List.forall_mem_cons.mp h
    rw [← ih hitems, behindCommas_cons, List.cons_append, List.cons_append, List.append_assoc]
    exact hv (.array :: stack) _

theorem walk_members {members : List (Option String × List Token)}
    (h : ∀ m ∈ members, IsPassed m.2) :
    walk .skipping .separator (.object :: stack)
        (behindCommas (members.map fun m => .text m.1 :: .colon :: m.2) ++ .endObject :: rest) =
      resume stack rest := by
  induction members with
  | nil => rfl
  | cons m members ih =>
    obtain ⟨hm, hmembers⟩ := List.forall_mem_cons.mp h
    rw [← ih hmembers, List.map_cons, behindCommas_cons, List.cons_append, List.cons_append,
      List.cons_append, List.cons_append, List.append_assoc]
    exact hm (.object :: stack) _

/-- The first item of an array is passed over like the others. -/
theorem IsValue.walk_firstItem (h : IsValue v) (stack : List Container) (rest : List Token) :
    walk .skipping .firstItem stack (v ++ rest) = walk .skipping .value stack (v ++ rest) := by
  cases h <;> rfl

theorem IsValue.isPassed (h : IsValue v) : IsPassed v := by
  induction h with
  | null | bool | number | text => exact fun _ _ => rfl
  | array items hitems ih =>
    intro stack rest
    cases items with
    | nil => rfl
    | cons v items =>
      obtain ⟨hv, ih⟩ := List.forall_mem_cons.mp ih
      rw [tail_behindCommas_cons, List.cons_append, List.append_assoc, List.append_assoc,
        List.singleton_append]
      refine Eq.trans ?_ (walk_items ih)
      exact ((hitems v List.mem_cons_self).walk_firstItem _ _).trans (hv (.array :: stack) _)
  | object members _ ih =>
    intro stack rest
    cases members with
    | nil => rfl
    | cons m members =>
      obtain ⟨hm, ih⟩ := List.forall_mem_cons.mp ih
      rw [List.map_cons, tail_behindCommas_cons, List.cons_append, List.append_assoc,
        List.append_assoc, List.singleton_append]
      refine Eq.trans ?_ (walk_members ih)
      exact hm (.object :: stack) _

/-- A value is passed over whole. -/
theorem IsValue.skip_append (h : IsValue v) (rest : List Token) : skip (v ++ rest) = .ok rest :=
  h.isPassed [] rest

/-! ## Numbers apart -/

theorem isNumber_of_mem_head?_behindCommas {groups : List (List Token)} (hn : u.isNumber = false) :
    ∀ t ∈ (behindCommas groups ++ u :: us).head?, t.isNumber = false := by
  cases groups with
  | nil => rintro t ⟨⟩; exact hn
  | cons => rintro t ⟨⟩; rfl

theorem apart_behindCommas {groups : List (List Token)} (h : ∀ g ∈ groups, Apart g)
    (hn : u.isNumber = false) : Apart (behindCommas groups ++ [u]) := by
  induction groups with
  | nil => exact .singleton u
  | cons g groups ih =>
    obtain ⟨hg, hgroups⟩ := List.forall_mem_cons.mp h
    rw [behindCommas_cons, List.append_assoc, List.cons_append]
    exact .cons rfl (.append hg (ih hgroups) (isNumber_of_mem_head?_behindCommas hn))

/-- Groups between brackets, with commas between them. -/
theorem apart_bracketed {groups : List (List Token)} (h : ∀ g ∈ groups, Apart g)
    (ht : t.isNumber = false) (hu : u.isNumber = false) :
    Apart (t :: ((behindCommas groups).tail ++ [u])) := by
  refine .cons ht ?_
  cases groups with
  | nil => exact .singleton u
  | cons g groups => exact List.IsChain.tail (apart_behindCommas h hu)

theorem IsValue.apart (h : IsValue v) : Apart v := by
  induction h with
  | null | bool | number | text => exact .singleton _
  | array items _ ih => exact apart_bracketed ih rfl rfl
  | object members _ ih =>
    refine apart_bracketed (fun g hg => ?_) rfl rfl
    obtain ⟨m, hm, rfl⟩ := List.mem_map.mp hg
    exact .cons rfl (.cons rfl (ih m hm))

end ChatRelay.Json
