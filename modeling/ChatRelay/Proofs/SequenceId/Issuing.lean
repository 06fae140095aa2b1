import ChatRelay.Proofs.SequenceId.Fields
import ChatRelay.SequenceId.Generator

/-!
# Issuing in order

A generator remembers the last slot, and every id that it issues is the numeral of a later one
(`Generator.rank`): either the clock has passed the last millisecond, or the counter goes on in it.
The clock may therefore stall, jump or step back; what it has shown at most is the millisecond of
the last slot. A call waits only while the counter of this millisecond is used up and the clock has
not passed it.

Calls come one after another, and read one clock. Ids of different workers differ in a field of
their own, which does not depend on any clock. The slot may be kept in one word of 64 bits, which
has room for it as long as the milliseconds fit in 52 bits (`slot?_eq_wordSlot?`).
-/

namespace ChatRelay.SequenceId.Generator

variable {g g' : Generator} {id : SequenceId} {now : Nat} {readings later : List Nat}

/-! ## One reading -/

theorem slot?_eq_none_iff :
    g.slot? now = none ↔ now ≤ g.lastMillis ∧ maxCounter ≤ g.lastCounter := by
  unfold slot?
  split
  next h => simp [Nat.not_le.mpr h]
  next h =>
    split
    next h' => simp [Nat.not_le.mpr h']
    next h' => simp [Nat.not_lt.mp h, Nat.not_lt.mp h']

theorem issue?_eq_none_iff :
    g.issue? now = none ↔ now ≤ g.lastMillis ∧ maxCounter ≤ g.lastCounter := by
  rw [issue?, Option.map_eq_none_iff, slot?_eq_none_iff]

/-- The slot of `g'` is a later one than that of `g`, and the id is its numeral. -/
structure Issues (g : Generator) (now : Nat) (id : SequenceId) (g' : Generator) : Prop where
  id_eq : id = ofFields g'.lastMillis g.worker g'.lastCounter
  worker : g'.worker = g.worker
  lastMillis : g'.lastMillis = max g.lastMillis now
  counter_le : g'.lastCounter ≤ maxCounter
  advances : g.lastMillis < g'.lastMillis ∨
    g'.lastMillis = g.lastMillis ∧ g.lastCounter < g'.lastCounter

theorem issues_of_issue? (h : g.issue? now = some (id, g')) : g.Issues now id g' := by
  obtain ⟨slot, hslot, he⟩ := Option.map_eq_some_iff.mp h
  obtain ⟨rfl, rfl⟩ := Prod.mk.inj he
  unfold slot? at hslot
  split at hslot
  next hlt =>
    obtain rfl := Option.some.inj hslot
    exact ⟨rfl, rfl, (Nat.max_eq_right (Nat.le_of_lt hlt)).symm, Nat.zero_le _, .inl hlt⟩
  next hle =>
    split at hslot
    next hcounter =>
      obtain rfl := Option.some.inj hslot
      exact ⟨rfl, rfl, (Nat.max_eq_left (Nat.not_lt.mp hle)).symm, hcounter,
        .inr ⟨rfl, Nat.lt_succ_self _⟩⟩
    next => cases hslot

/-- The last slot as a numeral: milliseconds, worker and counter in mixed radix. -/
def rank (g : Generator) : Int :=
  (g.lastMillis - epoch) * 2 ^ 22 + g.worker * 2 ^ 12 + g.lastCounter

namespace Issues

theorem worker_id (hi : g.Issues now id g') : id.worker = g.worker := by
  rw [hi.id_eq]
  exact worker_ofFields _ g.worker_le hi.counter_le

theorem rank_lt (hi : g.Issues now id g') (hc : g.lastCounter ≤ maxCounter) : g.rank < g'.rank := by
  have hcounter : g.lastCounter ≤ 4095 := hc
  have hadvances := hi.advances
  rw [rank, rank, hi.worker]
  omega

theorem value_eq (hi : g.Issues now id g') (hm : InEra g'.lastMillis) :
    id.value.toInt = g'.rank := by
  rw [hi.id_eq, toInt_ofFields (Int.le_of_lt hm.1) hm.2 g.worker_le hi.counter_le, rank, hi.worker]

theorem unixMillis_eq (hi : g.Issues now id g') (hm : InEra g'.lastMillis) :
    id.unixMillis = g'.lastMillis := by
  rw [hi.id_eq]
  exact unixMillis_ofFields (Int.le_of_lt hm.1) hm.2 g.worker_le hi.counter_le

theorem value_pos (hi : g.Issues now id g') (hm : InEra g'.lastMillis) : 0 < id.value := by
  rw [Int64.lt_iff_toInt_lt, hi.value_eq hm, rank]
  have hepoch := hm.1
  have hzero : (0 : Int64).toInt = 0 := rfl
  rw [hzero]
  omega

end Issues

/-! ## One call -/

theorem issueOn?_eq_none_iff : g.issueOn? readings = none ↔
    readings = [] ∨ maxCounter ≤ g.lastCounter ∧ ∀ now ∈ readings, now ≤ g.lastMillis := by
  induction readings with
  | nil => simp [issueOn?]
  | cons now later ih =>
    rw [issueOn?]
    cases h : g.issue? now with
    | none =>
      obtain ⟨hnow, hcounter⟩ := issue?_eq_none_iff.mp h
      simp only [ih, List.forall_mem_cons, hnow, hcounter, true_and, reduceCtorEq, false_or]
      constructor
      · rintro (rfl | hlater)
        · nofun
        · exact hlater
      · exact .inr
    | some issued =>
      have hsome : ¬ (now ≤ g.lastMillis ∧ maxCounter ≤ g.lastCounter) := by
        rw [← issue?_eq_none_iff, h]
        nofun
      simp only [reduceCtorEq, List.forall_mem_cons, false_or, false_iff]
      rintro ⟨hcounter, hnow, -⟩
      exact hsome ⟨hnow, hcounter⟩

/-- A call waits for readings that do not pass the last millisecond, and issues on the next one. -/
theorem issueOn?_eq_some (h : g.issueOn? readings = some (id, g', later)) :
    ∃ waited now, readings = waited ++ now :: later ∧ (∀ r ∈ waited, r ≤ g.lastMillis) ∧
      g.Issues now id g' := by
  induction readings with
  | nil => cases h
  | cons now rest ih =>
    rw [issueOn?] at h
    cases hissue : g.issue? now with
    | none =>
      rw [hissue] at h
      obtain ⟨waited, now', rfl, hwaited, hi⟩ := ih h
      have hnow := (issue?_eq_none_iff.mp hissue).1
      exact ⟨now :: waited, now', rfl, List.forall_mem_cons.mpr ⟨hnow, hwaited⟩, hi⟩
    | some issued =>
      obtain ⟨id', g''⟩ := issued
      rw [hissue] at h
      cases h
      exact ⟨[], now, rfl, nofun, issues_of_issue? hissue⟩

/-- What a clock shows to a call that waits for it: the reading that the call finds, and the next
millisecond if there is no slot left in this one. -/
def shown (g : Generator) (now : Nat) : List Nat :=
  if (g.slot? now).isSome then [now] else [now, g.lastMillis + 1]

/-- Issuing on a clock that is waited for is a call on what this clock shows. -/
theorem issueOn?_eq_issue (g : Generator) (now : Nat) :
    g.issueOn? (g.shown now) = some ((g.issue now).1, (g.issue now).2, []) := by
  cases h : g.slot? now with
  | some slot => simp [shown, issueOn?, issue?, issue, h]
  | none =>
    have hnext : g.slot? (g.lastMillis + 1) = some (g.lastMillis + 1, 0) := by simp [slot?]
    simp [shown, issueOn?, issue?, issue, h, hnext]

/-- A call does not look at the readings behind the one that it issues on. -/
theorem issueOn?_append (h : g.issueOn? readings = some (id, g', later)) (more : List Nat) :
    g.issueOn? (readings ++ more) = some (id, g', later ++ more) := by
  induction readings with
  | nil => cases h
  | cons now rest ih =>
    rw [List.cons_append]
    rw [issueOn?] at h ⊢
    cases hissue : g.issue? now with
    | none =>
      rw [hissue] at h
      exact ih h
    | some issued =>
      rw [hissue] at h
      cases h
      rfl

/-! ## Calls one after another -/

/-- So many calls one after another on the readings of one clock: the ids in the order of issue, the
generator afterwards and the readings that are left. There is no result if a call still waits when
the readings are used up. -/
def issueTimes? (g : Generator) (readings : List Nat) :
    Nat → Option (List SequenceId × Generator × List Nat)
  | 0 => some ([], g, readings)
  | n + 1 =>
    match g.issueTimes? readings n with
    | none => none
    | some (ids, g, later) =>
      (g.issueOn? later).map fun (id, g, later) => (ids ++ [id], g, later)

theorem issueTimes?_succ_eq_some {n : Nat} {ids : List SequenceId}
    (h : g.issueTimes? readings (n + 1) = some (ids, g', later)) :
    ∃ ids₁ g₁ later₁ id, g.issueTimes? readings n = some (ids₁, g₁, later₁) ∧
      g₁.issueOn? later₁ = some (id, g', later) ∧ ids = ids₁ ++ [id] := by
  rw [issueTimes?] at h
  split at h
  next => cases h
  next ids₁ g₁ later₁ hbefore =>
    obtain ⟨⟨id, g₂, later₂⟩, hcall, he⟩ := Option.map_eq_some_iff.mp h
    cases he
    exact ⟨ids₁, g₁, later₁, id, hbefore, hcall, rfl⟩

theorem issueTimes?_append {n : Nat} {ids : List SequenceId}
    (h : g.issueTimes? readings n = some (ids, g', later)) (more : List Nat) :
    g.issueTimes? (readings ++ more) n = some (ids, g', later ++ more) := by
  induction n generalizing ids g' later with
  | zero =>
    obtain ⟨rfl, rfl, rfl⟩ := h
    rfl
  | succ n ih =>
    obtain ⟨ids₁, g₁, later₁, id, hbefore, hcall, rfl⟩ := issueTimes?_succ_eq_some h
    simp only [issueTimes?, ih hbefore, issueOn?_append hcall more, Option.map_some]

/-- What holds after calls of a generator of worker `w` on the readings `seen`. -/
structure Reached (w : Nat) (seen : List Nat) (ids : List SequenceId) (g : Generator) : Prop where
  worker : g.worker = w
  counter_le : g.lastCounter ≤ maxCounter
  seen_le : ∀ r ∈ seen, r ≤ g.lastMillis
  lastMillis_mem : g.lastMillis ∈ seen ∨ g.lastMillis = 0
  workers : ∀ id ∈ ids, id.worker = w

theorem reached_new {w : Nat} (hg : new? w = some g) : Reached w [] [] g := by
  unfold new? at hg
  split at hg
  next h =>
    obtain rfl := Option.some.inj hg
    exact ⟨rfl, Nat.zero_le _, nofun, .inr rfl, nofun⟩
  next => cases hg

variable {w : Nat} {seen : List Nat} {ids : List SequenceId}

/-- The millisecond of the last slot is the greatest reading so far. -/
theorem Reached.next (hr : Reached w seen ids g) {waited : List Nat}
    (hwaited : ∀ r ∈ waited, r ≤ g.lastMillis) (hi : g.Issues now id g') :
    Reached w (seen ++ (waited ++ [now])) (ids ++ [id]) g' where
  worker := hi.worker.trans hr.worker
  counter_le := hi.counter_le
  seen_le r hmem := by
    have hmax := hi.lastMillis
    rcases List.mem_append.mp hmem with hmem | hmem
    · have hle := hr.seen_le r hmem
      omega
    · rcases List.mem_append.mp hmem with hmem | hmem
      · have hle := hwaited r hmem
        omega
      · have hnow := List.mem_singleton.mp hmem
        omega
  lastMillis_mem := by
    have hmem := hr.lastMillis_mem
    rw [hi.lastMillis]
    rcases Nat.le_total g.lastMillis now with hle | hle
    · rw [Nat.max_eq_right hle]
      exact .inl (by simp)
    · rw [Nat.max_eq_left hle]
      exact hmem.imp_left (List.mem_append_left _)
  workers id' hmem := by
    rcases List.mem_append.mp hmem with hmem | hmem
    · exact hr.workers id' hmem
    · rw [List.mem_singleton.mp hmem, hi.worker_id, hr.worker]

theorem Reached.inEra (hr : Reached w seen ids g) (hne : seen ≠ [])
    (hclock : ∀ r ∈ seen, InEra r) : InEra g.lastMillis := by
  rcases hr.lastMillis_mem with hmem | hzero
  · exact hclock _ hmem
  · obtain ⟨r, hmem⟩ := List.exists_mem_of_ne_nil seen hne
    have hle := hr.seen_le r hmem
    have hpos := (hclock r hmem).pos
    omega

/-- A run keeps the invariant, and no id has a greater numeral than the last slot. -/
theorem reached_of_issueTimes? {g₀ : Generator} (hg : new? w = some g₀) {n : Nat}
    (h : g₀.issueTimes? readings n = some (ids, g, later)) : ∃ seen, readings = seen ++ later ∧
      Reached w seen ids g ∧
      ((∀ r ∈ seen, InEra r) → ∀ id ∈ ids, id.value.toInt ≤ g.rank) := by
  induction n generalizing ids g later with
  | zero =>
    obtain ⟨rfl, rfl, rfl⟩ := h
    exact ⟨[], rfl, reached_new hg, nofun⟩
  | succ n ih =>
    obtain ⟨ids₁, g₁, later₁, id, hbefore, hcall, rfl⟩ := issueTimes?_succ_eq_some h
    obtain ⟨seen, rfl, hr, hids⟩ := ih hbefore
    obtain ⟨waited, now, rfl, hwaited, hi⟩ := issueOn?_eq_some hcall
    have hr' := hr.next hwaited hi
    refine ⟨seen ++ (waited ++ [now]), by simp, hr', fun hclock id' hmem => ?_⟩
    have hlt := hi.rank_lt hr.counter_le
    rcases List.mem_append.mp hmem with hmem | hmem
    · have hle := hids (fun r hr => hclock r (List.mem_append_left _ hr)) id' hmem
      omega
    · rw [List.mem_singleton.mp hmem]
      exact Int.le_of_eq (hi.value_eq (hr'.inEra (by simp) hclock))

/-- An id of worker `w` that is assigned, and later than all of `ids`. -/
structure Succeeds (w : Nat) (ids : List SequenceId) (id : SequenceId) : Prop where
  pos : 0 < id.value
  later : ∀ id' ∈ ids, id'.value < id.value
  worker : id.worker = w

/-- The next call of a run issues a later id, whose instant is the greatest reading so far. -/
theorem succeeds_of_issueOn? {g₀ : Generator} (hg : new? w = some g₀) {n : Nat}
    (h : g₀.issueTimes? readings n = some (ids, g, later)) (hclock : ∀ r ∈ readings, InEra r)
    {rest : List Nat} (hcall : g.issueOn? later = some (id, g', rest)) :
    ∃ seen, readings = seen ++ rest ∧ Succeeds w ids id ∧
      ∃ r ∈ seen, id.unixMillis = r ∧ ∀ r' ∈ seen, r' ≤ r := by
  obtain ⟨seen, rfl, hr, hids⟩ := reached_of_issueTimes? hg h
  obtain ⟨waited, now, rfl, hwaited, hi⟩ := issueOn?_eq_some hcall
  have hr' := hr.next hwaited hi
  have hsplit : seen ++ (waited ++ now :: rest) = (seen ++ (waited ++ [now])) ++ rest := by simp
  have hseen : ∀ r ∈ seen ++ (waited ++ [now]), InEra r := by
    intro r hmem
    rw [hsplit] at hclock
    exact hclock r (List.mem_append_left _ hmem)
  have hmillis := hr'.inEra (by simp) hseen
  refine ⟨seen ++ (waited ++ [now]), hsplit, ⟨hi.value_pos hmillis, ?_, ?_⟩, ?_⟩
  · intro id' hmem
    have hle := hids (fun r hmem => hseen r (List.mem_append_left _ hmem)) id' hmem
    rw [Int64.lt_iff_toInt_lt, hi.value_eq hmillis]
    exact Int.lt_of_le_of_lt hle (hi.rank_lt hr.counter_le)
  · rw [hi.worker_id, hr.worker]
  · have hzero : g'.lastMillis ≠ 0 := Nat.ne_of_gt hmillis.pos
    exact ⟨g'.lastMillis, hr'.lastMillis_mem.resolve_right hzero, hi.unixMillis_eq hmillis,
      hr'.seen_le⟩

/-! ## The slot in one word -/

/-- The slot, with the counter in the lower twelve bits. -/
def word (g : Generator) : UInt64 :=
  UInt64.ofNat g.lastMillis <<< 12 ||| UInt64.ofNat g.lastCounter

/-- The slot that a clock reading leads to from the one in the word, if there is one. -/
def wordSlot? (word : UInt64) (now : Nat) : Option (Nat × Nat) :=
  let millis := (word >>> 12).toNat
  let counter := (word &&& 4095).toNat
  if millis < now then some (now, 0)
  else if counter < maxCounter then some (millis, counter + 1)
  else none

theorem toNat_word (hm : g.lastMillis < 2 ^ 52) (hc : g.lastCounter ≤ maxCounter) :
    g.word.toNat = 2 ^ 12 * g.lastMillis + g.lastCounter := by
  have hcounter : g.lastCounter ≤ 4095 := hc
  have hhigh : (UInt64.ofNat g.lastMillis <<< 12).toNat = 2 ^ 12 * g.lastMillis := by
    have hshift : (12 : UInt64).toNat % 64 = 12 := rfl
    rw [UInt64.toNat_shiftLeft, UInt64.toNat_ofNat', hshift, Nat.shiftLeft_eq]
    omega
  have hlow : (UInt64.ofNat g.lastCounter).toNat = g.lastCounter := by
    rw [UInt64.toNat_ofNat']
    omega
  rw [word, UInt64.toNat_or, hhigh, hlow, ← Nat.two_pow_add_eq_or_of_lt (by omega)]

/-- No part of the slot is lost in the word. -/
theorem slot?_eq_wordSlot? {g₀ : Generator} (hg : new? w = some g₀) {n : Nat}
    (h : g₀.issueTimes? readings n = some (ids, g, later)) (hclock : ∀ r ∈ readings, InEra r)
    (now : Nat) : g.slot? now = wordSlot? g.word now := by
  obtain ⟨seen, rfl, hr, -⟩ := reached_of_issueTimes? hg h
  have hmillis : g.lastMillis < 2 ^ 52 := by
    rcases hr.lastMillis_mem with hmem | hzero
    · exact (hclock _ (List.mem_append_left _ hmem)).lt_two_pow
    · omega
  have hcounter : g.lastCounter ≤ 4095 := hr.counter_le
  have hword := toNat_word hmillis hr.counter_le
  have hhigh : (g.word >>> 12).toNat = g.lastMillis := by
    have hshift : (12 : UInt64).toNat % 64 = 12 := rfl
    rw [UInt64.toNat_shiftRight, hword, hshift, Nat.shiftRight_eq_div_pow]
    omega
  have hlow : (g.word &&& 4095).toNat = g.lastCounter := by
    have hmask := Nat.and_two_pow_sub_one_eq_mod g.word.toNat 12
    rw [UInt64.toNat_and]
    refine hmask.trans ?_
    omega
  rw [slot?, wordSlot?, hhigh, hlow]

/-! ## Every run -/

/-- After any number of calls, and whatever the clock has shown, the next call waits only while the
counter of the last millisecond is used up and the clock has not passed it. Otherwise it issues an
id that is positive and greater than all before, that names the worker, and whose instant is the
greatest reading so far. A generator of another worker issues none of these ids, whatever the two
clocks show. All this is so as well if the slot is kept in one word. -/
theorem issue_in_order {g₀ : Generator} (hg : new? w = some g₀) (readings : List Nat) (n : Nat)
    (ids : List SequenceId) (g : Generator) (later : List Nat)
    (h : g₀.issueTimes? readings n = some (ids, g, later)) :
    ((∀ r ∈ readings, InEra r) → later ≠ [] →
      (g.issueOn? later = none ↔
        g.lastCounter = maxCounter ∧ ∀ r ∈ later, r ≤ g.lastMillis) ∧
      ∀ id g' rest, g.issueOn? later = some (id, g', rest) → ∃ seen, readings = seen ++ rest ∧
        0 < id.value ∧ (∀ id' ∈ ids, id'.value < id.value) ∧ id.worker = w ∧
        ∃ r ∈ seen, id.unixMillis = r ∧ ∀ r' ∈ seen, r' ≤ r) ∧
    (∀ w' g₀' readings' n' ids' g' later', new? w' = some g₀' → w' ≠ w →
      g₀'.issueTimes? readings' n' = some (ids', g', later') → ∀ id ∈ ids, id ∉ ids') ∧
    ((∀ r ∈ readings, InEra r) → ∀ now, g.slot? now = wordSlot? g.word now) := by
  refine ⟨fun hclock hlater => ⟨?_, ?_⟩, ?_, fun hclock => slot?_eq_wordSlot? hg h hclock⟩
  · obtain ⟨_, -, hr, -⟩ := reached_of_issueTimes? hg h
    rw [issueOn?_eq_none_iff, or_iff_right hlater]
    have hcounter : g.lastCounter = maxCounter ↔ maxCounter ≤ g.lastCounter :=
      ⟨fun he => Nat.le_of_eq he.symm, fun hle => Nat.le_antisymm hr.counter_le hle⟩
    exact and_congr_left fun _ => hcounter.symm
  · intro id g' rest hcall
    obtain ⟨seen, hsplit, hid, hinstant⟩ := succeeds_of_issueOn? hg h hclock hcall
    exact ⟨seen, hsplit, hid.pos, hid.later, hid.worker, hinstant⟩
  · intro w' g₀' readings' n' ids' g' later' hg' hne h' id hmem hmem'
    obtain ⟨_, -, hr, -⟩ := reached_of_issueTimes? hg h
    obtain ⟨_, -, hr', -⟩ := reached_of_issueTimes? hg' h'
    exact hne ((hr'.workers id hmem').symm.trans (hr.workers id hmem))

/-- The clock stalls and then steps back. -/
theorem issue_in_order_stepping_back :
    let start := 1704067200000
    ∃ g₀ ids g, new? 42 = some g₀ ∧
      g₀.issueTimes? [start + 5, start + 5, start + 3] 2 = some (ids, g, [start + 3]) ∧
      ∃ id g', g.issueOn? [start + 3] = some (id, g', []) ∧ 0 < id.value ∧
        (∀ id' ∈ ids, id'.value < id.value) ∧ id.worker = 42 ∧
        id.unixMillis = (start + 5 : Nat) := by
  intro start
  have hg : new? 42 = some ⟨42, by decide, 0, 0⟩ := by decide
  have h : (⟨42, by decide, 0, 0⟩ : Generator).issueTimes? [start + 5, start + 5, start + 3] 2 =
      some ([ofFields (start + 5) 42 0, ofFields (start + 5) 42 1],
        ⟨42, by decide, start + 5, 1⟩, [start + 3]) := by decide +kernel
  have hcall : (⟨42, by decide, start + 5, 1⟩ : Generator).issueOn? [start + 3] =
      some (ofFields (start + 5) 42 2, ⟨42, by decide, start + 5, 2⟩, []) := by decide +kernel
  have hclock : ∀ r ∈ [start + 5, start + 5, start + 3], InEra r := by
    intro r hr
    simp only [List.mem_cons, List.not_mem_nil, or_false] at hr
    unfold InEra epoch
    omega
  obtain ⟨-, hissue⟩ := (issue_in_order hg _ 2 _ _ _ h).1 hclock (List.cons_ne_nil _ _)
  obtain ⟨seen, hseen, hpos, hlt, hworker, r, hmem, hmillis, hmax⟩ := hissue _ _ _ hcall
  rw [List.append_nil] at hseen
  subst hseen
  have hr : r = start + 5 := by
    have hle := hmax (start + 5) List.mem_cons_self
    simp only [List.mem_cons, List.not_mem_nil, or_false] at hmem
    omega
  subst hr
  exact ⟨_, _, _, hg, h, _, _, hcall, hpos, hlt, hworker, hmillis⟩

end ChatRelay.SequenceId.Generator
