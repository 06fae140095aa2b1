import ChatRelay.Proofs.Json.Lossless
import ChatRelay.Proofs.Json.Values

/-!
# Records in arrays, and records of other values

A record is also read from an array of its fields (`Fields.read_items`).

The same text may be read at two types. `Fields.Translation` relates two records field by field:
where the codec of the first record finds a value, that of the second one finds what a function
makes of it, and of the faults those are the same that one asks for. What holds of the codecs of the
fields then holds of the records (`Fields.Translation.decode`).
-/

namespace ChatRelay.Json

/-! ## Results compared -/

/-- The second result is what `f` makes of the first one. If the first one is a fault that `keeps`
names, the second one is the same fault. -/
def Follows {α β : Type} (keeps : Fault → Prop) (f : α → β) : Except Fault α → Except Fault β → Prop
  | .ok a, e' => e' = .ok (f a)
  | .error fault, e' => keeps fault → e' = .error fault

namespace Follows

variable {α β α' β' : Type} {keeps : Fault → Prop} {f : α → β} {e : Except Fault α}
  {e' : Except Fault β}

theorem error (fault : Fault) : Follows keeps f (.error fault) (.error fault) :=
  fun _ => rfl

theorem refl (e : Except Fault (α × α')) : Follows keeps (Prod.map id id) e e := by
  cases e with
  | error fault => exact .error fault
  | ok r => rfl

theorem map {g : α → α'} {g' : β → β'} {f' : α' → β'} (h : Follows keeps f e e')
    (hg : ∀ a, g' (f a) = f' (g a)) : Follows keeps f' (e.map g) (e'.map g') := by
  cases e with
  | error fault =>
    intro hkeeps
    rw [h hkeeps]
    rfl
  | ok a =>
    have hok : e' = .ok (f a) := h
    rw [hok]
    exact congrArg Except.ok (hg a)

theorem eq_ok (h : Follows keeps f e e') {a : α} (he : e = .ok a) : e' = .ok (f a) := by
  subst he
  exact h

/-- If all faults are kept, nothing but the value differs. -/
theorem eq_map (h : Follows (fun _ => True) f e e') : e' = e.map f := by
  cases e with
  | error fault => exact h trivial
  | ok a => exact h

theorem decode {c : Codec α} {d : Codec β} {bytes : List UInt8}
    (h : Follows keeps (Prod.map f id) (c.read Codec.nesting (tokens bytes))
      (d.read Codec.nesting (tokens bytes))) :
    Follows keeps f (c.decode bytes) (d.decode bytes) := by
  unfold Codec.decode
  cases hread : c.read Codec.nesting (tokens bytes) with
  | error fault =>
    rw [hread] at h
    intro hkeeps
    rw [h hkeeps]
  | ok r =>
    obtain ⟨a, rest⟩ := r
    rw [h.eq_ok hread]
    cases rest with
    | nil => rfl
    | cons => exact .error .malformed

end Follows

theorem Codec.decode_map {α β : Type} (c : Codec α) (of : α → β) (back : β → α)
    (bytes : List UInt8) : (c.map of back).decode bytes = (c.decode bytes).map of := by
  refine (Follows.decode ?_).eq_map
  simp only [map, refine]
  cases c.read nesting (tokens bytes) with
  | error fault => exact .error fault
  | ok r => rfl

namespace Fields

variable {τ τ' : Type} {room : Nat} {fs : Fields τ} {fs' : Fields τ'} {t : τ} {t' : τ'}

/-! ## Arrays -/

theorem spellMembers_eq (ms : List (String × List Token)) :
    spellMembers ms = behindCommas (ms.map fun m => .text (some m.1) :: .colon :: m.2) :=
  (List.flatMap_map ..).symm

/-- The items are read as the values of the fields, in declared order. -/
inductive ReadsAll (room : Nat) : {τ : Type} → Fields τ → τ → List (List Token) → Prop
  | nil : ReadsAll room .nil () []
  | cons {α τ : Type} {name : String} {codec : Codec α} {dflt : Option α} {fs : Fields τ} {a : α}
      {t : τ} {v : List Token} {vs : List (List Token)} (hv : v.head? ≠ some .endArray)
      (hread : ∀ rest, codec.read room (v ++ rest) = .ok (a, rest))
      (hrest : ReadsAll room fs t vs) : ReadsAll room (.cons name codec dflt fs) (a, t) (v :: vs)

/-- Where an item is due, it is found behind the comma that stands before it, if it is not the
first one. -/
theorem readNextItem_behindCommas {v : List Token} (hne : v ≠ []) (hv : v.head? ≠ some .endArray)
    (vs : List (List Token)) (rest : List Token) :
    readNextItem true ((behindCommas (v :: vs)).tail ++ rest) =
      .ok (some (v ++ (behindCommas vs ++ rest))) ∧
    readNextItem false (behindCommas (v :: vs) ++ rest) =
      .ok (some (v ++ (behindCommas vs ++ rest))) := by
  obtain ⟨token, v, rfl⟩ := List.exists_cons_of_ne_nil hne
  have htoken : token ≠ .endArray := fun h => hv (congrArg some h)
  rw [tail_behindCommas_cons, behindCommas_cons, List.append_assoc, List.append_assoc]
  cases token <;> first | exact absurd rfl htoken | exact ⟨rfl, rfl⟩

theorem readItems_behindCommas {vs : List (List Token)} (h : fs.ReadsAll room t vs)
    (rest : List Token) :
    fs.readItems room true ((behindCommas vs).tail ++ .endArray :: rest) = .ok (t, rest) ∧
    fs.readItems room false (behindCommas vs ++ .endArray :: rest) = .ok (t, rest) := by
  induction h with
  | nil => exact ⟨rfl, rfl⟩
  | @cons α τ name codec dflt fs a t v vs hv hread hrest ih =>
    have hne : v ≠ [] := by
      rintro rfl
      exact Nat.lt_irrefl _ (codec.read_lt (hread []))
    obtain ⟨hfirst, hlater⟩ := readNextItem_behindCommas hne hv vs (.endArray :: rest)
    constructor
    · simp only [readItems, hfirst, hread, ih.2, Except.map]
    · simp only [readItems, hlater, hread, ih.2, Except.map]

/-- An array of the fields is read as the record. -/
theorem read_items {vs : List (List Token)} (hr : 1 < room) (h : fs.ReadsAll (room - 1) t vs)
    (rest : List Token) :
    fs.read room (.beginArray :: ((behindCommas vs).tail ++ .endArray :: rest)) =
      .ok (t, rest) := by
  rw [read, if_neg (Nat.not_le.mpr hr)]
  exact (readItems_behindCommas h rest).1

/-! ## Records of other values -/

/-- The fields of the second record are those of the first one, with other values. -/
inductive Translation (keeps : Fault → Prop) : {τ τ' : Type} → Fields τ → Fields τ' → Type 1
  | nil : Translation keeps .nil .nil
  | cons {α α' τ τ' : Type} {codec : Codec α} {codec' : Codec α'} {fs : Fields τ}
      {fs' : Fields τ'} (name : String) (dflt : Option α) (f : α → α')
      (hread : ∀ room ts, Follows keeps (Prod.map f id) (codec.read room ts) (codec'.read room ts))
      (rest : Translation keeps fs fs') :
      Translation keeps (.cons name codec dflt fs) (.cons name codec' (dflt.map f) fs')

namespace Translation

variable {keeps : Fault → Prop}

/-- What is made of the values of all fields. -/
def value : {τ τ' : Type} → {fs : Fields τ} → {fs' : Fields τ'} → Translation keeps fs fs' → τ → τ'
  | _, _, _, _, nil, _ => ()
  | _, _, _, _, cons _ _ f _ rest, (a, t) => (f a, rest.value t)

/-- What is made of the values found so far. -/
def slots : {τ τ' : Type} → {fs : Fields τ} → {fs' : Fields τ'} → Translation keeps fs fs' →
    fs.Slots → fs'.Slots
  | _, _, _, _, nil, _ => ()
  | _, _, _, _, cons _ _ f _ rest, s => (s.1.map f, rest.slots s.2)

variable (tr : Translation keeps fs fs')

theorem slots_empty : tr.slots fs.empty = fs'.empty := by
  induction tr with
  | nil => rfl
  | cons name dflt f hread rest ih => exact congrArg (Prod.mk none) ih

theorem finish_follows (s : fs.Slots) :
    Follows keeps tr.value (fs.finish s) (fs'.finish (tr.slots s)) := by
  induction tr with
  | nil => rfl
  | cons name dflt f hread rest ih =>
    simp only [finish, slots, ← Option.map_or]
    cases s.1.or dflt with
    | none => exact .error .unfit
    | some a => exact (ih s.2).map fun _ => rfl

/-! ### Objects -/

theorem readMember?_follows (key : String) (ts : List Token) (s : fs.Slots) :
    Option.Rel (Follows keeps (Prod.map tr.slots id)) (readMember? room key ts fs s)
      (readMember? room key ts fs' (tr.slots s)) := by
  induction tr with
  | nil => exact .none
  | cons name dflt f hread rest ih =>
    simp only [readMember?, slots, Option.isSome_map]
    split_ifs with hname hslot
    · exact .some (.error .unfit)
    · cases readColon ts with
      | error fault => exact .some (.error fault)
      | ok ts' => exact .some ((hread room ts').map fun _ => rfl)
    · have hrest := ih s.2
      generalize readMember? room key ts _ s.2 = found at hrest ⊢
      generalize readMember? room key ts _ (rest.slots s.2) = found' at hrest ⊢
      cases hrest with
      | none => exact .none
      | some h => exact .some (h.map fun _ => rfl)

theorem readMember_follows (key : String) (ts : List Token) (s : fs.Slots) :
    Follows keeps (Prod.map tr.slots id) (fs.readMember room s key ts)
      (fs'.readMember room (tr.slots s) key ts) := by
  have h : Option.Rel _ (readMember? room key ts fs s) _ := tr.readMember?_follows key ts s
  unfold readMember
  generalize readMember? room key ts fs s = found at h ⊢
  generalize readMember? room key ts fs' (tr.slots s) = found' at h ⊢
  cases h with
  | some h => exact h
  | none =>
    dsimp only
    cases readColon ts with
    | error fault => exact .error fault
    | ok ts' =>
      dsimp only
      cases skip ts' with
      | error flaw => exact .error (.flaw flaw)
      | ok rest => rfl

theorem readMembers_follows (first : Bool) (ts : List Token) (s : fs.Slots) :
    Follows keeps (Prod.map tr.value id) (fs.readMembers room first s ts)
      (fs'.readMembers room first (tr.slots s) ts) := by
  fun_induction readMembers room fs first s ts with
  | case1 first s ts fault hk =>
    rw [readMembers_of_fault hk]
    exact .error fault
  | case2 first s ts rest hk =>
    rw [readMembers_of_end hk]
    exact (tr.finish_follows s).map fun _ => rfl
  | case3 first s ts key ts' hk fault hm =>
    have h : Follows _ _ (readMember room fs s key ts') _ := tr.readMember_follows key ts' s
    rw [hm] at h
    exact fun hkeeps => readMembers_of_memberFault hk (h hkeeps)
  | case4 first s ts key ts' hk s' rest hm ih =>
    rw [readMembers_of_member hk ((tr.readMember_follows key ts' s).eq_ok hm)]
    exact ih

/-! ### Arrays -/

theorem readItems_follows (first : Bool) (ts : List Token) :
    Follows keeps (Prod.map tr.value id) (fs.readItems room first ts)
      (fs'.readItems room first ts) := by
  induction tr generalizing first ts with
  | nil => exact .refl _
  | @cons α α' τ τ' codec codec' fs fs' name dflt f hread rest ih =>
    simp only [readItems]
    cases readNextItem first ts with
    | error fault => exact .error fault
    | ok item? =>
      cases item? with
      | none =>
        cases dflt with
        | none => exact .error .unfit
        | some a => exact (ih first ts).map fun _ => rfl
      | some ts' =>
        have h := hread room ts'
        dsimp only
        cases hv : codec.read room ts' with
        | error fault =>
          rw [hv] at h
          intro hkeeps
          rw [h hkeeps]
        | ok r =>
          rw [h.eq_ok hv]
          exact (ih false r.2).map fun _ => rfl

/-! ### Texts -/

theorem read_follows (ts : List Token) :
    Follows keeps (Prod.map tr.value id) (fs.read room ts) (fs'.read room ts) := by
  unfold read
  split
  · exact .error .truncated
  · split_ifs
    · exact .error .malformed
    · exact tr.slots_empty ▸ tr.readMembers_follows true _ fs.empty
  · split_ifs
    · exact .error .malformed
    · exact tr.readItems_follows true _
  · exact .error _

theorem decode (bytes : List UInt8) :
    Follows keeps tr.value (fs.codec.decode bytes) (fs'.codec.decode bytes) :=
  .decode (tr.read_follows (tokens bytes))

end Translation

end Fields

end ChatRelay.Json
