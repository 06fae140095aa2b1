import ChatRelay.Json.Record
import ChatRelay.Proofs.Json.Spelling

/-!
# Lossless codecs

A codec is lossless if it reads back what it writes, whatever follows, and if what it writes can be
spelled; a value then survives being written as text (`Codec.Lossless.roundTrips`). The property is
kept by every way to build a codec from others, so each message needs no more than the list of its
fields. Entering a bracket costs one of the brackets that may be open, which `depth` counts.

A record is written with its members in declared order, but nothing in the argument depends on that
order: `Fields.Fits` says what reading a single member contributes, and `Fields.read_spellMembers`
puts together members that fit, in whatever order they stand and whichever of those with a default
are left out.
-/

namespace ChatRelay.Json

/-- What a mapped result comes from. -/
theorem exists_of_map_eq_ok {ε α β : Type} {e : Except ε α} {f : α → β} {b : β}
    (h : e.map f = .ok b) : ∃ a, e = .ok a ∧ f a = b := by
  cases e <;> cases h
  exact ⟨_, rfl, rfl⟩

namespace Codec

variable {α β : Type} {c : Codec α} {depth : Nat}

/-- A text is decoded if all of it is read. -/
theorem decode_eq_ok_iff {bytes : List UInt8} {a : α} :
    c.decode bytes = .ok a ↔ c.read nesting (tokens bytes) = .ok (a, []) := by
  unfold decode
  cases c.read nesting (tokens bytes) with
  | error fault => exact ⟨nofun, nofun⟩
  | ok r =>
    obtain ⟨a', rest⟩ := r
    cases rest <;> simp

/-- What the codec writes is read back, whatever follows it, where `depth` brackets may still be
opened, and it can be spelled without blanks. -/
structure Lossless (c : Codec α) (depth : Nat) : Prop where
  read_write : ∀ {room : Nat} (a : α) (rest : List Token), depth < room →
    c.read room (c.write a ++ rest) = .ok (a, rest)
  compact : ∀ a, Compact (c.write a)

/-- A value that is written as a text is the value that is read from the text. -/
def RoundTrips (c : Codec α) : Prop :=
  ∀ a, c.decode (c.encode a).toUTF8.toList = .ok a

theorem Lossless.roundTrips (h : c.Lossless depth) (hd : depth < nesting) : c.RoundTrips := by
  intro a
  have hread := h.read_write a [] hd
  rw [List.append_nil] at hread
  rwa [decode_eq_ok_iff, encode, (h.compact a).tokens_render]

/-! ## Scalars -/

theorem lossless_text : text.Lossless depth where
  read_write _ _ _ := rfl
  compact _ := .singleton trivial

theorem lossless_integer {ofInt? : Int → Except Fault α} {toInt : α → Int}
    (h : ∀ a, ofInt? (toInt a) = .ok a) (hr : ∀ a, -2 ^ 63 ≤ toInt a ∧ toInt a < 2 ^ 64) :
    (integer ofInt? toInt).Lossless depth where
  read_write a rest _ := by
    simp only [integer, scalar, List.singleton_append, Function.comp_apply, readScalar, h]
  compact a := .singleton (hr a)

theorem lossless_int64 : int64.Lossless depth :=
  lossless_integer
    (fun a => by
      rw [if_pos ⟨a.minValue_le_toInt, a.toInt_le⟩, Int64.ofInt_toInt])
    (fun a => ⟨a.le_toInt, by have := a.toInt_lt; omega⟩)

theorem lossless_int32 : int32.Lossless depth :=
  lossless_integer
    (fun a => by rw [if_pos ⟨a.minValue_le_toInt, a.toInt_le⟩, Int32.ofInt_toInt])
    (fun a => by have := a.le_toInt; have := a.toInt_lt; omega)

theorem lossless_uint64 : uint64.Lossless depth :=
  lossless_integer
    (fun a => by
      rw [if_pos ⟨Int.natCast_nonneg _, Int.ofNat_lt.mpr a.toNat_lt⟩, Int.toNat_natCast,
        UInt64.ofNat_toNat])
    (fun a => by have := a.toNat_lt; omega)

/-! ## Values read through others -/

theorem Lossless.refine {of? : α → Except Fault β} {back : β → α} (h : c.Lossless depth)
    (hb : ∀ b, of? (back b) = .ok b) : (c.refine of? back).Lossless depth where
  read_write b rest hd := by
    simp only [Codec.refine, h.read_write (back b) rest hd, hb, Except.map]
  compact b := h.compact (back b)

theorem Lossless.map {of : α → β} {back : β → α} (h : c.Lossless depth)
    (hb : ∀ b, of (back b) = b) : (c.map of back).Lossless depth :=
  h.refine fun b => congrArg Except.ok (hb b)

theorem lossless_summarized {of? : Summary → Except Fault α} {toInt : α → Int}
    (h : ∀ a, of? (.whole (toInt a)) = .ok a) (hr : ∀ a, -2 ^ 63 ≤ toInt a ∧ toInt a < 2 ^ 64) :
    (summarized of? toInt).Lossless depth where
  read_write a rest _ := by
    have hs (room : Nat) : readSummary room (.number (.whole (toInt a)) :: rest) =
        .ok (.whole (toInt a), rest) := rfl
    simp only [summarized, List.singleton_append, hs, h, Except.map]
  compact a := .singleton (hr a)

end Codec

/-! ## Records -/

namespace Fields

variable {τ : Type} {room depth : Nat} {fs : Fields τ} {t : τ}

/-- The names of the fields, in declared order. -/
def names : {τ : Type} → Fields τ → List String
  | _, nil => []
  | _, cons name _ _ rest => name :: rest.names

/-- The codecs of all fields are lossless. -/
def Lossless (depth : Nat) : {τ : Type} → Fields τ → Prop
  | _, nil => True
  | _, cons _ codec _ rest => codec.Lossless depth ∧ rest.Lossless depth

/-- The slots that are filled once the values of the fields `found` of a record have been read. -/
def slotsOf (found : List String) : {τ : Type} → (fs : Fields τ) → τ → fs.Slots
  | _, nil, _ => ()
  | _, cons name _ _ rest, (a, t) =>
    (if name ∈ found then some a else none, rest.slotsOf found t)

/-- The members of a record with the tokens that are written for their values. -/
def members : {τ : Type} → Fields τ → τ → List (String × List Token)
  | _, nil, _ => []
  | _, cons name codec _ fs, (a, t) => (name, codec.write a) :: fs.members t

/-- Members as they stand in an object, each behind a comma. -/
def spellMembers (ms : List (String × List Token)) : List Token :=
  ms.flatMap fun m => .comma :: .text (some m.1) :: .colon :: m.2

theorem slotsOf_nil (fs : Fields τ) (t : τ) : fs.slotsOf [] t = fs.empty := by
  induction fs with
  | nil => rfl
  | cons name codec dflt fs ih => exact congrArg (Prod.mk none) (ih t.2)

theorem slotsOf_cons_of_notMem {name : String} {found : List String} (h : name ∉ fs.names) :
    fs.slotsOf (name :: found) t = fs.slotsOf found t := by
  induction fs with
  | nil => rfl
  | cons name' codec dflt fs ih =>
    obtain ⟨hne, hn⟩ := List.ne_and_not_mem_of_not_mem_cons h
    simp only [slotsOf, ih hn, List.mem_cons, Ne.symm hne, false_or]
    rfl

/-- Every field has been found, or its default is the record's value for it. -/
def Supplied (found : List String) : {τ : Type} → Fields τ → τ → Prop
  | _, nil, _ => True
  | _, cons name _ dflt fs, (a, t) => (name ∈ found ∨ dflt = some a) ∧ fs.Supplied found t

theorem supplied_of_subset {found : List String} (h : ∀ name ∈ fs.names, name ∈ found) :
    fs.Supplied found t := by
  induction fs with
  | nil => trivial
  | cons name codec dflt fs ih =>
    obtain ⟨hn, hfs⟩ := List.forall_mem_cons.mp h
    exact ⟨.inl hn, ih hfs⟩

theorem finish_slotsOf {found : List String} (h : fs.Supplied found t) :
    fs.finish (fs.slotsOf found t) = .ok t := by
  induction fs with
  | nil => rfl
  | cons name codec dflt fs ih =>
    obtain ⟨a, t⟩ := t
    obtain ⟨ha, hfs⟩ := h
    have hslot : (if name ∈ found then some a else none).or dflt = some a := by
      by_cases hn : name ∈ found
      · simp [hn]
      · simp [hn, ha.resolve_left hn]
    simp only [slotsOf, finish, hslot, ih hfs]
    rfl

/-- Wherever the member stands, reading it fills the slot of the record's value for it. A member
of an unknown name may be given more than once. -/
def Fits (room : Nat) (fs : Fields τ) (t : τ) (m : String × List Token) : Prop :=
  ∀ found rest, (m.1 ∈ fs.names → m.1 ∉ found) →
    readMember room fs (fs.slotsOf found t) m.1 (.colon :: (m.2 ++ rest)) =
      .ok (fs.slotsOf (m.1 :: found) t, rest)

theorem map_fst_members (fs : Fields τ) (t : τ) : (fs.members t).map Prod.fst = fs.names := by
  induction fs with
  | nil => rfl
  | cons name codec dflt fs ih => exact congrArg (List.cons name) (ih t.2)

theorem spellMembers_members (fs : Fields τ) (t : τ) :
    spellMembers (fs.members t) = fs.writeMembers t := by
  induction fs with
  | nil => rfl
  | cons name codec dflt fs ih =>
    obtain ⟨a, t⟩ := t
    rw [members, spellMembers, List.flatMap_cons, writeMembers, ← ih]
    rfl

/-- The tokens `v`, as the member of that name, are read as the record's value for it. -/
def Reads (room : Nat) (name : String) (v : List Token) : {τ : Type} → Fields τ → τ → Prop
  | _, nil, _ => False
  | _, cons name' codec _ fs, (a, t) =>
    if name' = name then ∀ rest, codec.read room (v ++ rest) = .ok (a, rest)
    else fs.Reads room name v t

theorem Reads.mem_names {name : String} {v : List Token} (h : fs.Reads room name v t) :
    name ∈ fs.names := by
  induction fs with
  | nil => cases h
  | cons name' codec dflt fs ih =>
    rw [Reads] at h
    split_ifs at h with hname
    · exact hname ▸ List.mem_cons_self
    · exact List.mem_cons_of_mem name' (ih h)

/-- What is written for a field is read as its value. -/
theorem reads_of_mem_members (hd : depth < room) (hl : fs.Lossless depth) (hn : fs.names.Nodup)
    {m : String × List Token} (hm : m ∈ fs.members t) : fs.Reads room m.1 m.2 t := by
  induction fs with
  | nil => cases hm
  | cons name codec dflt fs ih =>
    obtain ⟨a, t⟩ := t
    obtain ⟨hc, hl⟩ := hl
    obtain ⟨hname, hn⟩ := List.nodup_cons.mp hn
    rw [Reads]
    rcases List.mem_cons.mp hm with rfl | hm
    · rw [if_pos rfl]
      exact fun rest => hc.read_write a rest hd
    · have hmem : m.1 ∈ fs.names := map_fst_members fs t ▸ List.mem_map_of_mem hm
      have hne : name ≠ m.1 := fun h => hname (h ▸ hmem)
      rw [if_neg hne]
      exact ih hl hn hm

theorem readMember?_of_reads (hn : fs.names.Nodup) {name : String} {v : List Token}
    (h : fs.Reads room name v t) {found : List String} (hf : name ∉ found) (rest : List Token) :
    readMember? room name (.colon :: (v ++ rest)) fs (fs.slotsOf found t) =
      some (.ok (fs.slotsOf (name :: found) t, rest)) := by
  induction fs with
  | nil => cases h
  | cons name' codec dflt fs ih =>
    obtain ⟨a, t⟩ := t
    obtain ⟨hname, hn⟩ := List.nodup_cons.mp hn
    rw [Reads] at h
    split_ifs at h with heq
    · subst heq
      simp only [slotsOf, slotsOf_cons_of_notMem hname, readMember?, readColon, if_neg hf, h rest]
      simp [Except.map]
    · simp only [slotsOf, readMember?, ih hn h, List.mem_cons, heq, false_or]
      rfl

theorem fits_of_reads (hn : fs.names.Nodup) {m : String × List Token}
    (h : fs.Reads room m.1 m.2 t) : fs.Fits room t m := by
  intro found rest hf
  rw [readMember, readMember?_of_reads hn h (hf h.mem_names)]

theorem readMember?_of_notMem {name : String} (h : name ∉ fs.names) (ts : List Token)
    (slots : fs.Slots) : readMember? room name ts fs slots = none := by
  induction fs with
  | nil => rfl
  | cons name' codec dflt fs ih =>
    obtain ⟨hne, hfs⟩ := List.ne_and_not_mem_of_not_mem_cons h
    rw [readMember?, if_neg (Ne.symm hne), ih hfs, Option.map_none]

/-- A member of an unknown name fits if its value is passed over. -/
theorem fits_of_skip {m : String × List Token} (hname : m.1 ∉ fs.names)
    (hv : ∀ rest, skip (m.2 ++ rest) = .ok rest) : fs.Fits room t m := by
  intro found rest _
  rw [readMember, readMember?_of_notMem hname, slotsOf_cons_of_notMem hname]
  simp only [readColon, hv]

theorem readMembers_of_fault {first : Bool} {slots : fs.Slots} {ts : List Token} {fault : Fault}
    (h : readNextKey first ts = .error fault) :
    readMembers room fs first slots ts = .error fault := by
  rw [readMembers]
  split <;> simp_all

theorem readMembers_of_end {first : Bool} {slots : fs.Slots} {ts rest : List Token}
    (h : readNextKey first ts = .ok (none, rest)) :
    readMembers room fs first slots ts = (fs.finish slots).map fun t => (t, rest) := by
  rw [readMembers]
  split <;> simp_all

theorem readMembers_of_memberFault {first : Bool} {slots : fs.Slots} {key : String}
    {ts ts' : List Token} {fault : Fault} (hk : readNextKey first ts = .ok (some key, ts'))
    (hm : readMember room fs slots key ts' = .error fault) :
    readMembers room fs first slots ts = .error fault := by
  rw [readMembers]
  split <;> simp_all
  split <;> simp_all

theorem readMembers_of_member {first : Bool} {slots slots' : fs.Slots} {key : String}
    {ts ts' rest : List Token} (hk : readNextKey first ts = .ok (some key, ts'))
    (hm : readMember room fs slots key ts' = .ok (slots', rest)) :
    readMembers room fs first slots ts = readMembers room fs false slots' rest := by
  rw [readMembers]
  split <;> simp_all
  split <;> simp_all

theorem readNextKey_spellMembers (m : String × List Token) (ms : List (String × List Token))
    (rest : List Token) :
    readNextKey false (spellMembers (m :: ms) ++ rest) =
      .ok (some m.1, .colon :: (m.2 ++ (spellMembers ms ++ rest))) := by
  simp [spellMembers, readNextKey, readKey, Except.map]

theorem readNextKey_tail_spellMembers (ms : List (String × List Token)) (rest : List Token) :
    readNextKey true ((spellMembers ms).tail ++ .endObject :: rest) =
      readNextKey false (spellMembers ms ++ .endObject :: rest) := by
  cases ms <;> rfl

theorem readMembers_spellMembers {ms : List (String × List Token)}
    (hm : ∀ m ∈ ms, fs.Fits room t m)
    (hn : ms.Pairwise fun m m' => m.1 = m'.1 → m'.1 ∉ fs.names) {found : List String}
    (hf : ∀ m ∈ ms, m.1 ∈ fs.names → m.1 ∉ found) {first : Bool} {ts rest : List Token}
    (hk : readNextKey first ts = readNextKey false (spellMembers ms ++ .endObject :: rest)) :
    readMembers room fs first (fs.slotsOf found t) ts =
      (fs.finish (fs.slotsOf ((ms.map Prod.fst).reverse ++ found) t)).map
        fun t => (t, rest) := by
  induction ms generalizing found first ts with
  | nil => exact readMembers_of_end hk
  | cons m ms ih =>
    obtain ⟨hfit, hm⟩ := List.forall_mem_cons.mp hm
    obtain ⟨hnew, hf⟩ := List.forall_mem_cons.mp hf
    obtain ⟨hne, hn⟩ := List.pairwise_cons.mp hn
    rw [readNextKey_spellMembers] at hk
    rw [readMembers_of_member hk (hfit found _ hnew), ih hm hn ?_ rfl, List.map_cons,
      List.reverse_cons, List.append_assoc, List.singleton_append]
    rintro m' hm' hname hmem
    rcases List.mem_cons.mp hmem with heq | hmem
    · exact hne m' hm' heq.symm hname
    · exact hf m' hm' hname hmem

/-- Members that fit are read as the record they fit, if they supply all of it. -/
theorem read_spellMembers {ms : List (String × List Token)} (hr : 1 < room)
    (hm : ∀ m ∈ ms, fs.Fits (room - 1) t m)
    (hn : ms.Pairwise fun m m' => m.1 = m'.1 → m'.1 ∉ fs.names)
    (hs : fs.Supplied (ms.map Prod.fst).reverse t) (rest : List Token) :
    fs.read room (.beginObject :: ((spellMembers ms).tail ++ .endObject :: rest)) =
      .ok (t, rest) := by
  have hfirst : ∀ m ∈ ms, m.1 ∈ fs.names → m.1 ∉ ([] : List String) := by simp
  have hread := readMembers_spellMembers hm hn hfirst (readNextKey_tail_spellMembers ms rest)
  rw [slotsOf_nil, List.append_nil, finish_slotsOf hs] at hread
  rw [read, if_neg (Nat.not_le.mpr hr), hread]
  rfl

theorem compact_writeMembers (hl : fs.Lossless depth) (t : τ) : Compact (fs.writeMembers t) := by
  induction fs with
  | nil => exact ⟨by simp [writeMembers], .nil⟩
  | cons name codec dflt fs ih =>
    obtain ⟨a, t⟩ := t
    have hhead : ∀ u ∈ (fs.writeMembers t).head?, u.isNumber = false := by
      cases fs <;> simp [writeMembers, Token.isNumber]
    exact .cons trivial rfl <| .cons trivial rfl <| .cons trivial rfl <|
      (hl.1.compact a).append (ih hl.2 t) hhead

/-- A record is lossless if its fields are; it takes one more bracket. -/
theorem Lossless.codec (hl : fs.Lossless depth) (hn : fs.names.Nodup) :
    fs.codec.Lossless (depth + 1) where
  read_write {room} t rest hd := by
    have hs : fs.Supplied ((fs.members t).map Prod.fst).reverse t :=
      supplied_of_subset (by simp [map_fst_members])
    have hpw : (fs.members t).Pairwise fun m m' => m.1 = m'.1 → m'.1 ∉ fs.names := by
      have := (map_fst_members fs t).symm ▸ hn
      exact (List.pairwise_map.mp this).imp fun hne heq => absurd heq hne
    have hfit : ∀ m ∈ fs.members t, fs.Fits (room - 1) t m := fun m hm =>
      fits_of_reads hn (reads_of_mem_members (by omega) hl hn hm)
    have hread := read_spellMembers (by omega) hfit hpw hs rest
    rw [spellMembers_members] at hread
    simp only [Fields.codec, List.cons_append, List.append_assoc, List.nil_append]
    exact hread
  compact t := by
    refine .cons trivial rfl (.append (compact_writeMembers hl t).tail (.singleton trivial) ?_)
    rintro u ⟨⟩
    rfl

end Fields

/-! ## Tables of texts -/

theorem readTexts_of_end {first : Bool} {found : List (String × String)} {ts rest : List Token}
    (h : Fields.readNextKey first ts = .ok (none, rest)) :
    readTexts first found ts = .ok (found.reverse, rest) := by
  rw [readTexts]
  split <;> simp_all

theorem readTexts_of_member {first : Bool} {found : List (String × String)}
    {key value : String} {ts rest : List Token}
    (h : Fields.readNextKey first ts = .ok (some key, .colon :: .text (some value) :: rest)) :
    readTexts first found ts = readTexts false ((key, value) :: found) rest := by
  have hc : Fields.readColon (.colon :: .text (some value) :: rest) =
      .ok (.text (some value) :: rest) := rfl
  have ht : Codec.text.read 0 (.text (some value) :: rest) = .ok (value, rest) := rfl
  rw [readTexts]
  split <;> grind

/-- An entry as a member. -/
def memberOf (e : String × String) : String × List Token :=
  (e.1, [.text (some e.2)])

theorem spellMembers_map_memberOf (entries : List (String × String)) :
    Fields.spellMembers (entries.map memberOf) = writeTexts entries :=
  List.flatMap_map ..

theorem readTexts_writeTexts {first : Bool} {found entries : List (String × String)}
    {ts rest : List Token}
    (hk : Fields.readNextKey first ts =
      Fields.readNextKey false (writeTexts entries ++ .endObject :: rest)) :
    readTexts first found ts = .ok (found.reverse ++ entries, rest) := by
  induction entries generalizing first found ts with
  | nil => rw [readTexts_of_end hk, List.append_nil]
  | cons e es ih =>
    have hk' : Fields.readNextKey first ts = .ok (some e.1, .colon :: .text (some e.2) ::
        (writeTexts es ++ .endObject :: rest)) := by
      rw [hk, ← spellMembers_map_memberOf, List.map_cons, Fields.readNextKey_spellMembers,
        spellMembers_map_memberOf]
      rfl
    rw [readTexts_of_member hk', ih rfl, List.reverse_cons, List.append_assoc,
      List.singleton_append]

theorem compact_writeTexts (entries : List (String × String)) : Compact (writeTexts entries) := by
  induction entries with
  | nil => exact ⟨by simp [writeTexts], .nil⟩
  | cons e es ih =>
    exact .cons trivial rfl <| .cons trivial rfl <| .cons trivial rfl <| .cons trivial rfl ih

theorem Codec.lossless_texts {depth : Nat} : Codec.texts.Lossless (depth + 1) where
  read_write {room} entries rest hd := by
    have hr : 1 < room := by omega
    have hk : Fields.readNextKey true ((writeTexts entries).tail ++ .endObject :: rest) =
        Fields.readNextKey false (writeTexts entries ++ .endObject :: rest) := by
      rw [← spellMembers_map_memberOf]
      exact Fields.readNextKey_tail_spellMembers _ rest
    simp only [Codec.texts, List.cons_append, List.append_assoc, List.nil_append,
      if_neg (Nat.not_le.mpr hr), readTexts_writeTexts hk, List.reverse_nil]
  compact entries := by
    refine .cons trivial rfl (.append (compact_writeTexts entries).tail (.singleton trivial) ?_)
    rintro u ⟨⟩
    rfl

end ChatRelay.Json
