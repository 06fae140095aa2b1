import ChatRelay.Json.Codec

/-!
# Records

A record is read from an object, with its members in any order and members of other names passed
over, or from an array of its fields in declared order. A field that is missing takes its default
if it has one. A member that is given twice is refused when its second key is read.

`Fields τ` lists the fields of a record whose values together form a `τ`, a nested pair that ends
in the unit. While an object is read, the values found so far stand in `Slots`.
-/

namespace ChatRelay.Json

/-- The fields of a record, in declared order. -/
inductive Fields : Type → Type 1 where
  | nil : Fields Unit
  | cons {α τ : Type} (name : String) (codec : Codec α) (dflt : Option α) (rest : Fields τ) :
      Fields (α × τ)

namespace Fields

variable {τ : Type}

/-- The values found so far. -/
def Slots : {τ : Type} → Fields τ → Type
  | _, nil => Unit
  | _, cons (α := α) _ _ _ rest => Option α × rest.Slots

/-- Nothing has been found. -/
def empty : {τ : Type} → (fs : Fields τ) → fs.Slots
  | _, nil => ()
  | _, cons _ _ _ rest => (none, rest.empty)

/-- All values, defaults taken for those that were not found. -/
def finish : {τ : Type} → (fs : Fields τ) → fs.Slots → Except Fault τ
  | _, nil, _ => .ok ()
  | _, cons _ _ dflt rest, slots =>
    match slots.1.or dflt with
    | none => .error .unfit
    | some a => (rest.finish slots.2).map fun t => (a, t)

/-! ## Objects -/

/-- Read the colon behind a key. -/
def readColon : List Token → Except Fault (List Token)
  | [] => .error .truncated
  | .colon :: rest => .ok rest
  | _ :: _ => .error .malformed

theorem readColon_lt {ts rest : List Token} (h : readColon ts = .ok rest) :
    rest.length < ts.length := by
  unfold readColon at h
  split at h <;> cases h
  exact Nat.lt_succ_self _

/-- Read the colon and the value of the member `key`, if there is a field of that name. -/
def readMember? (room : Nat) (key : String) (ts : List Token) :
    {τ : Type} → (fs : Fields τ) → fs.Slots → Option (Except Fault (fs.Slots × List Token))
  | _, nil, _ => none
  | _, cons name codec _ rest, slots =>
    if name = key then some <|
      if slots.1.isSome then .error .unfit
      else
        match readColon ts with
        | .error fault => .error fault
        | .ok ts' => (codec.read room ts').map fun r => ((some r.1, slots.2), r.2)
    else
      (readMember? room key ts rest slots.2).map (Except.map fun r => ((slots.1, r.1), r.2))

theorem readMember?_lt {room : Nat} {key : String} {ts : List Token} {fs : Fields τ}
    {slots slots' : fs.Slots} {rest : List Token}
    (h : readMember? room key ts fs slots = some (.ok (slots', rest))) :
    rest.length < ts.length := by
  induction fs with
  | nil => cases h
  | cons name codec dflt fs ih =>
    unfold readMember? at h
    split at h
    · split at h
      · cases h
      · split at h
        · cases h
        next ts' hc =>
          cases hr : codec.read room ts' with
          | error fault => rw [hr] at h; cases h
          | ok r =>
            rw [hr] at h
            cases h
            exact Nat.lt_trans (codec.read_lt hr) (readColon_lt hc)
    · cases hr : readMember? room key ts fs slots.2 with
      | none => rw [hr] at h; cases h
      | some e =>
        cases e with
        | error fault => rw [hr] at h; cases h
        | ok r =>
          rw [hr] at h
          cases h
          exact ih hr

/-- Read the colon and the value of the member `key`, or pass over it. -/
def readMember (room : Nat) (fs : Fields τ) (slots : fs.Slots) (key : String) (ts : List Token) :
    Except Fault (fs.Slots × List Token) :=
  match readMember? room key ts fs slots with
  | some result => result
  | none =>
    match readColon ts with
    | .error fault => .error fault
    | .ok ts' =>
      match skip ts' with
      | .error flaw => .error (.flaw flaw)
      | .ok rest => .ok (slots, rest)

theorem readMember_lt {room : Nat} {fs : Fields τ} {slots slots' : fs.Slots} {key : String}
    {ts rest : List Token} (h : readMember room fs slots key ts = .ok (slots', rest)) :
    rest.length < ts.length := by
  unfold readMember at h
  split at h
  next hm => exact readMember?_lt (hm.trans (congrArg some h))
  · split at h
    · cases h
    next hc =>
      split at h
      · cases h
      next hs => cases h; exact Nat.lt_trans (length_skip_lt hs) (readColon_lt hc)

/-- A key that is due, kept as a text. -/
def readKey : List Token → Except Fault (String × List Token)
  | [] => .error .truncated
  | .text (some key) :: rest => .ok (key, rest)
  | .brokenText kept _ :: _ => .error (.flaw kept)
  | _ :: _ => .error .malformed

/-- Read the next key of an object, or the end of the object. -/
def readNextKey (first : Bool) : List Token → Except Fault (Option String × List Token)
  | [] => .error .truncated
  | .endObject :: rest => .ok (none, rest)
  | .comma :: rest =>
    if first then .error .malformed else (readKey rest).map fun r => (some r.1, r.2)
  | token :: rest =>
    if first then (readKey (token :: rest)).map fun r => (some r.1, r.2) else .error .malformed

theorem readKey_lt {ts rest : List Token} {key : String} (h : readKey ts = .ok (key, rest)) :
    rest.length < ts.length := by
  unfold readKey at h
  split at h <;> cases h
  exact Nat.lt_succ_self _

theorem readNextKey_lt {first : Bool} {ts rest : List Token} {key : Option String}
    (h : readNextKey first ts = .ok (key, rest)) : rest.length < ts.length := by
  have lift {ts' : List Token} {n : Nat} (hn : ts'.length ≤ n)
      (h : (readKey ts').map (fun r => (some r.1, r.2)) = .ok (key, rest)) : rest.length < n := by
    cases hk : readKey ts' with
    | error fault => rw [hk] at h; cases h
    | ok r =>
      rw [hk] at h
      cases h
      exact Nat.lt_of_lt_of_le (readKey_lt hk) hn
  unfold readNextKey at h
  split at h
  · cases h
  · cases h
    exact Nat.lt_succ_self _
  · split at h
    · cases h
    · exact lift (Nat.le_succ _) h
  · split at h
    · exact lift (Nat.le_refl _) h
    · cases h

/-- Read the members of an object up to its end. -/
def readMembers (room : Nat) (fs : Fields τ) (first : Bool) (slots : fs.Slots) (ts : List Token) :
    Except Fault (τ × List Token) :=
  match _hk : readNextKey first ts with
  | .error fault => .error fault
  | .ok (none, rest) => (fs.finish slots).map fun t => (t, rest)
  | .ok (some key, ts') =>
    match _hm : readMember room fs slots key ts' with
    | .error fault => .error fault
    | .ok (slots', rest) => readMembers room fs false slots' rest
  termination_by ts.length
  decreasing_by exact Nat.lt_trans (readMember_lt _hm) (readNextKey_lt _hk)

theorem readMembers_lt {room : Nat} {fs : Fields τ} {first : Bool} {slots : fs.Slots}
    {ts rest : List Token} {t : τ} (h : readMembers room fs first slots ts = .ok (t, rest)) :
    rest.length < ts.length := by
  fun_induction readMembers room fs first slots ts with
  | case1 => cases h
  | case2 first slots ts rest' hk =>
    cases hf : fs.finish slots with
    | error fault => rw [hf] at h; cases h
    | ok t' => rw [hf] at h; cases h; exact readNextKey_lt hk
  | case3 => cases h
  | case4 first slots ts key ts' hk slots' rest' hm ih =>
    exact Nat.lt_trans (ih h) (Nat.lt_trans (readMember_lt hm) (readNextKey_lt hk))

/-! ## Arrays -/

/-- What stands where the next item of an array is due: the item, or the end of the array. -/
def readNextItem (first : Bool) : List Token → Except Fault (Option (List Token))
  | [] => .error .truncated
  | .endArray :: _ => .ok none
  | .comma :: rest =>
    if first then .ok (some (.comma :: rest))
    else
      match rest with
      | [] => .error .truncated
      | .endArray :: _ => .error .malformed
      | rest => .ok (some rest)
  | token :: rest => if first then .ok (some (token :: rest)) else .error .malformed

theorem readNextItem_le {first : Bool} {ts ts' : List Token}
    (h : readNextItem first ts = .ok (some ts')) : ts'.length ≤ ts.length := by
  unfold readNextItem at h
  split at h
  · cases h
  · cases h
  · split at h
    · cases h; exact Nat.le_refl _
    · split at h <;> cases h
      exact Nat.le_succ _
  · split at h <;> cases h
    exact Nat.le_refl _

/-- Read the end of an array. -/
def readArrayEnd : List Token → Except Fault (List Token)
  | [] => .error .truncated
  | .endArray :: rest => .ok rest
  | _ :: _ => .error .malformed

/-- Read the fields from the items of an array, up to and with its end. -/
def readItems (room : Nat) : {τ : Type} → Fields τ → Bool → List Token →
    Except Fault (τ × List Token)
  | _, nil, _, ts => (readArrayEnd ts).map fun rest => ((), rest)
  | _, cons _ codec dflt fs, first, ts =>
    match readNextItem first ts with
    | .error fault => .error fault
    | .ok none =>
      match dflt with
      | none => .error .unfit
      | some a => (readItems room fs first ts).map fun r => ((a, r.1), r.2)
    | .ok (some ts') =>
      match codec.read room ts' with
      | .error fault => .error fault
      | .ok (a, rest) => (readItems room fs false rest).map fun r => ((a, r.1), r.2)

theorem readItems_lt {room : Nat} {fs : Fields τ} {first : Bool} {ts rest : List Token} {t : τ}
    (h : readItems room fs first ts = .ok (t, rest)) : rest.length < ts.length := by
  induction fs generalizing first ts with
  | nil =>
    unfold readItems readArrayEnd at h
    split at h <;> cases h
    exact Nat.lt_succ_self _
  | cons name codec dflt fs ih =>
    unfold readItems at h
    split at h
    · cases h
    · split at h
      · cases h
      next =>
        cases hr : readItems room fs first ts with
        | error fault => rw [hr] at h; cases h
        | ok r => rw [hr] at h; cases h; exact ih hr
    next ts' hn =>
      split at h
      · cases h
      next a rest' hc =>
        cases hr : readItems room fs false rest' with
        | error fault => rw [hr] at h; cases h
        | ok r =>
          rw [hr] at h
          cases h
          exact Nat.lt_trans (ih hr) (Nat.lt_of_lt_of_le (codec.read_lt hc) (readNextItem_le hn))

/-! ## The codec of a record -/

/-- Read a record from an object or from an array. -/
def read (fs : Fields τ) (room : Nat) : List Token → Except Fault (τ × List Token)
  | [] => .error .truncated
  | .beginObject :: rest =>
    if room ≤ 1 then .error .malformed else readMembers (room - 1) fs true fs.empty rest
  | .beginArray :: rest =>
    if room ≤ 1 then .error .malformed else readItems (room - 1) fs true rest
  | token :: _ => .error token.refusal

theorem read_lt {fs : Fields τ} {room : Nat} {ts rest : List Token} {t : τ}
    (h : fs.read room ts = .ok (t, rest)) : rest.length < ts.length := by
  unfold read at h
  split at h
  · cases h
  · split at h
    · cases h
    · exact Nat.lt_succ_of_lt (readMembers_lt h)
  · split at h
    · cases h
    · exact Nat.lt_succ_of_lt (readItems_lt h)
  · cases h

/-- The members of a record in declared order, each behind a comma. -/
def writeMembers : {τ : Type} → Fields τ → τ → List Token
  | _, nil, _ => []
  | _, cons name codec _ fs, (a, t) =>
    .comma :: .text (some name) :: .colon :: codec.write a ++ fs.writeMembers t

/-- The codec of a record; it is written as an object. -/
def codec (fs : Fields τ) : Codec τ where
  read := fs.read
  write t := .beginObject :: (fs.writeMembers t).tail ++ [.endObject]
  read_lt := read_lt

end Fields

/-! ## Tables of texts -/

/-- Read the members of an object of texts, up to and with its end. -/
def readTexts (first : Bool) (found : List (String × String)) (ts : List Token) :
    Except Fault (List (String × String) × List Token) :=
  match _hk : Fields.readNextKey first ts with
  | .error fault => .error fault
  | .ok (none, rest) => .ok (found.reverse, rest)
  | .ok (some key, ts') =>
    match _hc : Fields.readColon ts' with
    | .error fault => .error fault
    | .ok ts'' =>
      match _ht : Codec.text.read 0 ts'' with
      | .error fault => .error fault
      | .ok (value, rest) => readTexts false ((key, value) :: found) rest
  termination_by ts.length
  decreasing_by
    exact Nat.lt_trans (Codec.text.read_lt _ht)
      (Nat.lt_trans (Fields.readColon_lt _hc) (Fields.readNextKey_lt _hk))

theorem readTexts_lt {first : Bool} {found entries : List (String × String)}
    {ts rest : List Token} (h : readTexts first found ts = .ok (entries, rest)) :
    rest.length < ts.length := by
  fun_induction readTexts first found ts with
  | case1 => cases h
  | case2 first found ts rest' hk => cases h; exact Fields.readNextKey_lt hk
  | case3 => cases h
  | case4 => cases h
  | case5 first found ts key ts' hk ts'' hc value rest' ht ih =>
    exact Nat.lt_trans (ih h) (Nat.lt_trans (Codec.text.read_lt ht)
      (Nat.lt_trans (Fields.readColon_lt hc) (Fields.readNextKey_lt hk)))

/-- The members of an object of texts, each behind a comma. -/
def writeTexts (entries : List (String × String)) : List Token :=
  entries.flatMap fun e => [.comma, .text (some e.1), .colon, .text (some e.2)]

/-- An object whose members are all texts, as the list of its members in the order of the text. -/
def Codec.texts : Codec (List (String × String)) where
  read room
    | [] => .error .truncated
    | .beginObject :: rest => if room ≤ 1 then .error .malformed else readTexts true [] rest
    | token :: _ => .error token.refusal
  write entries := .beginObject :: (writeTexts entries).tail ++ [.endObject]
  read_lt := by
    intro room ts entries rest h
    split at h
    · cases h
    · split at h
      · cases h
      · exact Nat.lt_succ_of_lt (readTexts_lt h)
    · cases h

end ChatRelay.Json
