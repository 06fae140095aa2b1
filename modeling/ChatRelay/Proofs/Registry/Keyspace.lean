import ChatRelay.Proofs.Registry.Names
import ChatRelay.Registry.Redis.Announcer

/-!
# What a server documents

A server is known here by what is documented of it and by nothing else. It holds something under
each of its keys, maybe up to a deadline (`Keyspace`); a command that is answered is carried out at
one instant, and one that fails may have been carried out or not. Pages of a listing may come in any
size and order and repeat keys, but a listing comes to an end, and then every key that the pattern
fits was in it. What is said of patterns is all that the registry needs: a text without special
characters, and a star behind it.

`Documented` collects this for a backend, `view` being what the server holds and `IsUp` that it can
be reached. From it follow what an action of the registry leaves behind (`Documented.view_act`) and
what resolving finds (`Documented.resolve_eq`); nothing else is used of a server.
-/

namespace ChatRelay.Redis

/-- What is under a key: a text, or a value of another type, and when it is gone. Times are in
nanoseconds. -/
structure Holding where
  text? : Option String
  deadline? : Option Nat
  deriving DecidableEq, Repr

/-- What a server holds at a time. -/
structure Keyspace where
  now : Nat
  holding? : String → Option Holding

/-- Nanoseconds in a second. -/
def second : Nat := 1000000000

namespace Keyspace

/-- Put something under a key, or nothing. -/
def set (ks : Keyspace) (key : String) (h? : Option Holding) : Keyspace :=
  { ks with holding? := fun k => if k = key then h? else ks.holding? k }

/-- The text under a key. -/
def text? (ks : Keyspace) (key : String) : Option String :=
  (ks.holding? key).bind Holding.text?

/-- What the server holds once a command is carried out. -/
def after (ks : Keyspace) : Command → Keyspace
  | .setExpiring key seconds value =>
    ks.set key (some ⟨some value, some (ks.now + seconds * second)⟩)
  | .expire key seconds =>
    ks.set key ((ks.holding? key).map fun h =>
      { h with deadline? := some (ks.now + seconds * second) })
  | .delete key => ks.set key none
  | .scan .. | .getMany _ => ks

/-- The command may be answered so. -/
def Permits (ks : Keyspace) : Command → Reply → Prop
  | .setExpiring .., reply | .delete _, reply => reply = .done
  | .expire key _, reply => reply = .found (ks.holding? key).isSome
  | .scan .., reply => ∃ next keys, reply = .page next keys
  | .getMany keys, reply => reply = .values (keys.map ks.text?)

variable (ks : Keyspace) (key k : String) (h? : Option Holding)

@[simp] theorem now_set : (ks.set key h?).now = ks.now := rfl

@[simp] theorem holding?_set :
    (ks.set key h?).holding? k = if k = key then h? else ks.holding? k := rfl

theorem holding?_set_self : (ks.set key h?).holding? key = h? := if_pos rfl

theorem holding?_set_of_ne {key k : String} (h : k ≠ key) :
    (ks.set key h?).holding? k = ks.holding? k := if_neg h

theorem set_eq_self {key : String} (h : ks.holding? key = h?) : ks.set key h? = ks := by
  have hholding : (ks.set key h?).holding? = ks.holding? := by
    funext k
    rw [holding?_set]
    split
    next hk => rw [hk, h]
    next => rfl
  exact congrArg (Keyspace.mk ks.now) hholding

@[simp] theorem set_set (h?' : Option Holding) : (ks.set key h?).set key h?' = ks.set key h?' := by
  have hholding : ((ks.set key h?).set key h?').holding? = (ks.set key h?').holding? := by
    funext k
    simp only [holding?_set]
    split <;> rfl
  exact congrArg (Keyspace.mk ks.now) hholding

/-! ## Time -/

/-- Time may have passed, but nobody wrote to the key: what is under it is as it was, unless its
deadline has come. -/
def LeftAlone (ks : Keyspace) (key : String) (ks' : Keyspace) : Prop :=
  ks.now ≤ ks'.now ∧
    (ks'.holding? key = ks.holding? key ∨
      ks'.holding? key = none ∧ ∃ h deadline, ks.holding? key = some h ∧
        h.deadline? = some deadline ∧ deadline ≤ ks'.now)

/-- A key that nobody writes to stays gone. -/
theorem LeftAlone.holding?_eq_none {ks ks' : Keyspace} {key : String} (h : ks.LeftAlone key ks')
    (hnone : ks.holding? key = none) : ks'.holding? key = none :=
  h.2.elim (fun hsame => hsame.trans hnone) And.left

/-- Until `time` something is under the key. -/
def HoldsUntil (ks : Keyspace) (key : String) (time : Nat) : Prop :=
  ks.now < time → ∃ h deadline, ks.holding? key = some h ∧ h.deadline? = some deadline ∧
    time ≤ deadline

namespace HoldsUntil

variable {ks ks' : Keyspace} {key : String} {time : Nat}

theorem leftAlone (h : ks.HoldsUntil key time) (halone : ks.LeftAlone key ks') :
    ks'.HoldsUntil key time := by
  intro hlt
  obtain ⟨hnow, hsame⟩ := halone
  obtain ⟨h, deadline, hholding, hdeadline, htime⟩ := h (Nat.lt_of_le_of_lt hnow hlt)
  obtain hsame | ⟨-, h', deadline', hholding', hdeadline', hgone⟩ := hsame
  · exact ⟨h, deadline, hsame.trans hholding, hdeadline, htime⟩
  · rw [hholding, Option.some_inj] at hholding'
    cases hholding'
    rw [hdeadline, Option.some_inj] at hdeadline'
    omega

theorem isSome (h : ks.HoldsUntil key time) (hlt : ks.now < time) :
    (ks.holding? key).isSome = true := by
  obtain ⟨held, -, hholding, -⟩ := h hlt
  exact Option.isSome_of_eq_some hholding

theorem mono (h : ks.HoldsUntil key time) {earlier : Nat} (hle : earlier ≤ time) :
    ks.HoldsUntil key earlier := by
  intro hlt
  obtain ⟨held, deadline, hholding, hdeadline, htime⟩ := h (Nat.lt_of_lt_of_le hlt hle)
  exact ⟨held, deadline, hholding, hdeadline, Nat.le_trans hle htime⟩

theorem congr (h : ks.HoldsUntil key time) (hnow : ks'.now = ks.now)
    (hholding : ks'.holding? key = ks.holding? key) : ks'.HoldsUntil key time := by
  intro hlt
  rw [hholding]
  exact h (hnow ▸ hlt)

theorem set_self {h : Holding} {deadline : Nat} (hdeadline : h.deadline? = some deadline)
    (htime : time ≤ deadline) : (ks.set key (some h)).HoldsUntil key time := fun _ =>
  ⟨h, deadline, ks.holding?_set_self key (some h), hdeadline, htime⟩

end HoldsUntil

end Keyspace

/-! ## Documented behaviour -/

/-- The characters that a pattern does not take literally. -/
def specialChars : List Char := ['*', '?', '[', ']', '\\']

/-- The text stands for itself in a pattern. -/
def IsLiteral (text : String) : Prop :=
  ∀ c ∈ text.toList, c ∉ specialChars

instance (text : String) : Decidable (IsLiteral text) :=
  List.decidableBAll (fun c => c ∉ specialChars) text.toList

theorem mem_keyBase {basePath : String} {c : Char}
    (hc : c ∈ (ServiceEntry.keyBase basePath).toList) : c ∈ basePath.toList ∨ c = '/' := by
  rw [ServiceEntry.keyBase, Text.trimEnd, String.toList_append, String.toList_ofList,
    List.mem_append, List.mem_reverse] at hc
  refine hc.imp (fun hc => ?_) List.mem_singleton.mp
  exact List.mem_reverse.mp ((List.dropWhile_sublist _).mem hc)

theorem isLiteral_keyBase {basePath : String} (h : IsLiteral basePath) :
    IsLiteral (ServiceEntry.keyBase basePath) := by
  intro c hc
  obtain hc | rfl := mem_keyBase hc
  · exact h c hc
  · decide

variable {σ : Type}

/-- The keys of all pages from a cursor on, and the state behind the last page. -/
inductive Pages (b : Backend σ) (pattern : String) : Nat → σ → List String → σ → Prop
  | last {cursor : Nat} {s s' : σ} {keys : List String}
      (hpage : b.perform s (.scan cursor pattern) = (.ok (.page 0 keys), s')) :
      Pages b pattern cursor s keys s'
  | more {cursor next : Nat} {s s' s'' : σ} {keys rest : List String}
      (hpage : b.perform s (.scan cursor pattern) = (.ok (.page next keys), s')) (hnext : next ≠ 0)
      (hrest : Pages b pattern next s' rest s'') : Pages b pattern cursor s (keys ++ rest) s''

/-- The backend does what is documented of a server. One that can be reached lists its keys and
reads them; it may always refuse to change anything, for a lifetime that is too long for it or for
want of memory. -/
structure Documented (b : Backend σ) (view : σ → Keyspace) (IsUp : σ → Prop) : Prop where
  carriesOut : ∀ {s s' : σ} {c : Command} {reply : Reply},
    b.perform s c = (.ok reply, s') → view s' = (view s).after c ∧ (view s).Permits c reply
  fails : ∀ {s s' : σ} {c : Command} {f : Failure},
    b.perform s c = (.error f, s') → view s' = view s ∨ view s' = (view s).after c
  ends : ∀ {s : σ} (pattern : String), IsUp s → ∃ keys s', Pages b pattern 0 s keys s' ∧ IsUp s'
  lists : ∀ {s s' : σ} {start : String} {keys : List String}, IsLiteral start →
    Pages b (start ++ "*") 0 s keys s' →
      ∀ k, k ∈ keys ↔ start.toList <+: k.toList ∧ ((view s).holding? k).isSome = true
  reads : ∀ {s : σ} {keys : List String}, keys ≠ [] → IsUp s →
    ∃ reply s', b.perform s (.getMany keys) = (.ok reply, s')

variable {b : Backend σ} {view : σ → Keyspace} {IsUp : σ → Prop} {s s' : σ}

/-! ## Operations -/

theorem wholeSeconds_eq_ok {millis : Nat} (h : 1000 ≤ millis) :
    wholeSeconds millis = .ok (millis / 1000) := by
  have hne : millis / 1000 ≠ 0 := by omega
  exact if_neg hne

theorem scanFrom_eq (pattern : String) (cursor : Nat) (earlier : List String) (s : σ) :
    scanFrom b pattern cursor earlier s =
      match scanPage b pattern cursor earlier s with
      | (.inl (cursor, earlier), s) => scanFrom b pattern cursor earlier s
      | (.inr outcome, s) => (outcome, s) := by
  have : Nonempty σ := ⟨s⟩
  rw [scanFrom, repeatM_eq_of_monadTail]
  simp only [repeatM.body, bind, StateT.bind]
  rcases scanPage b pattern cursor earlier s with ⟨⟨cursor', earlier'⟩ | outcome, s'⟩ <;> rfl

theorem Pages.scanFrom_eq {pattern : String} {cursor : Nat} {keys : List String}
    (h : Pages b pattern cursor s keys s') (earlier : List String) :
    scanFrom b pattern cursor earlier s = (.ok (earlier ++ keys), s') := by
  induction h generalizing earlier with
  | last hpage => rw [Redis.scanFrom_eq, scanPage, hpage]; rfl
  | more hpage hnext _ ih =>
    rw [Redis.scanFrom_eq, scanPage, hpage]
    simp only [hnext, if_false]
    rw [ih, List.append_assoc]

namespace Documented

theorem view_of_pages (hb : Documented b view IsUp) {pattern : String} {cursor : Nat}
    {keys : List String} (h : Pages b pattern cursor s keys s') : view s' = view s := by
  induction h with
  | last hpage => exact (hb.carriesOut hpage).1
  | more hpage _ _ ih => exact ih.trans (hb.carriesOut hpage).1

/-- Behind a listing the server gives each key the text that it held before. -/
theorem getMany_of_pages (hb : Documented b view IsUp) {pattern : String} {cursor : Nat}
    {keys : List String} (h : Pages b pattern cursor s keys s') (hup : IsUp s') :
    ∀ asked ≠ [], ∃ s'', b.perform s' (.getMany asked) =
      (.ok (.values (asked.map (view s).text?)), s'') := by
  intro asked hne
  obtain ⟨reply, s'', hperform⟩ := hb.reads hne hup
  obtain ⟨-, hpermits⟩ := hb.carriesOut hperform
  cases hpermits
  rw [← hb.view_of_pages h]
  exact ⟨s'', hperform⟩

end Documented

/-! ## Listed keys -/

theorem eraseReps_loop (k : String) (ks earlier : List String) :
    List.eraseRepsBy.loop (· == ·) k ks earlier =
      earlier.reverse ++ List.eraseRepsBy.loop (· == ·) k ks [] := by
  induction ks generalizing k earlier with
  | nil => simp [List.eraseRepsBy.loop]
  | cons k' ks ih =>
    simp only [List.eraseRepsBy.loop]
    cases k == k' with
    | true => exact ih k earlier
    | false => rw [ih k' (k :: earlier), ih k' [k]]; simp

theorem eraseReps_cons_cons (k k' : String) (ks : List String) :
    (k :: k' :: ks).eraseReps =
      if k = k' then (k' :: ks).eraseReps else k :: (k' :: ks).eraseReps := by
  simp only [List.eraseReps, List.eraseRepsBy, List.eraseRepsBy.loop]
  split_ifs with h
  · rw [h, beq_self_eq_true]
  · rw [beq_false_of_ne h]
    exact eraseReps_loop k' ks [k]

theorem mem_eraseReps {k : String} {ks : List String} : k ∈ ks.eraseReps ↔ k ∈ ks := by
  induction ks with
  | nil => rfl
  | cons k₁ ks ih =>
    cases ks with
    | nil => rfl
    | cons k₂ ks =>
      rw [eraseReps_cons_cons]
      split_ifs with h
      · rw [ih, h]; simp
      · rw [List.mem_cons, ih]
        exact List.mem_cons.symm

/-- Sorted keys are in strict order once repetitions are left out. -/
theorem pairwise_eraseReps {ks : List String} (h : ks.Pairwise (· ≤ ·)) :
    ks.eraseReps.Pairwise (· < ·) := by
  induction ks with
  | nil => exact .nil
  | cons k₁ ks ih =>
    cases ks with
    | nil => simp [List.eraseReps, List.eraseRepsBy, List.eraseRepsBy.loop]
    | cons k₂ ks =>
      rw [eraseReps_cons_cons]
      rw [List.pairwise_cons] at h
      split_ifs with hne
      · exact ih h.2
      · refine List.pairwise_cons.mpr ⟨fun k hk => ?_, ih h.2⟩
        have hlt : k₁ < k₂ := lt_of_le_of_ne (h.1 k₂ List.mem_cons_self) hne
        rw [mem_eraseReps, List.mem_cons] at hk
        obtain rfl | hk := hk
        · exact hlt
        · exact hlt.trans_le ((List.pairwise_cons.mp h.2).1 k hk)

theorem mem_distinct {k : String} {ks : List String} : k ∈ distinct ks ↔ k ∈ ks := by
  rw [distinct, mem_eraseReps]
  exact (List.mergeSort_perm ks _).mem_iff

theorem pairwise_distinct (ks : List String) : (distinct ks).Pairwise (· < ·) := by
  have htrans (k₁ k₂ k₃ : String) (h : decide (k₁ ≤ k₂) = true) (h' : decide (k₂ ≤ k₃) = true) :
      decide (k₁ ≤ k₃) = true :=
    decide_eq_true (String.le_trans (of_decide_eq_true h) (of_decide_eq_true h'))
  have htotal (k₁ k₂ : String) : (decide (k₁ ≤ k₂) || decide (k₂ ≤ k₁)) = true := by
    simp [String.le_total]
  exact pairwise_eraseReps ((List.pairwise_mergeSort htrans htotal ks).imp of_decide_eq_true)

theorem nodup_distinct (ks : List String) : (distinct ks).Nodup :=
  (pairwise_distinct ks).imp fun h => h.ne

theorem present_map (f : String → Option String) (ks : List String) :
    present ks (ks.map f) = ks.filterMap fun k => (f k).map (k, ·) := by
  induction ks with
  | nil => rfl
  | cons k ks ih =>
    rw [present, List.map_cons, List.zip_cons_cons, List.filterMap_cons, List.filterMap_cons, ← ih]
    rfl

/-- The keys of a list that hold texts, with these. -/
theorem mem_stored {store : String → Option String} {keys : List String} {k text : String} :
    (k, text) ∈ keys.filterMap (fun k => (store k).map (k, ·)) ↔
      k ∈ keys ∧ store k = some text := by
  simp only [List.mem_filterMap, Option.map_eq_some_iff, Prod.mk.injEq]
  constructor
  · rintro ⟨_, hk, _, htext, rfl, rfl⟩
    exact ⟨hk, htext⟩
  · rintro ⟨hk, htext⟩
    exact ⟨k, hk, text, htext, rfl, rfl⟩

theorem map_fst_stored (store : String → Option String) (keys : List String) :
    (keys.filterMap fun k => (store k).map (k, ·)).map Prod.fst =
      keys.filter fun k => (store k).isSome := by
  induction keys with
  | nil => rfl
  | cons k keys ih =>
    rw [List.filterMap_cons, List.filter_cons, ← ih]
    cases store k <;> rfl

/-- A listing that comes to an end finds what the server then holds under the listed keys. -/
theorem Pages.entriesWithPrefix_eq {start : String} {listed : List String}
    {store : String → Option String} (hpages : Pages b (start ++ "*") 0 s listed s')
    (hreads : ∀ keys ≠ [], ∃ s'', b.perform s' (.getMany keys) =
      (.ok (.values (keys.map store)), s'')) :
    (entriesWithPrefix b start s).1 =
      .ok ((distinct listed).filterMap fun k => (store k).map (k, ·)) := by
  rw [entriesWithPrefix, hpages.scanFrom_eq, List.nil_append]
  cases hkeys : distinct listed with
  | nil => simp only [hkeys, List.filterMap_nil]
  | cons k keys =>
    obtain ⟨s'', hperform⟩ := hreads (k :: keys) (List.cons_ne_nil k keys)
    simp only [hkeys, hperform, present_map]

/-! ## Actions on entries -/

namespace Announcer

/-- When an entry that is written now is gone. -/
def leaseEnd (a : Announcer) (ks : Keyspace) : Nat :=
  ks.now + a.lifetime / 1000 * second

/-- What an action leaves under the key of its entry. A refresh keeps the text that it finds. -/
def leaves (a : Announcer) (ks : Keyspace) (action : RegistryAction) : Option Holding :=
  match action.verb with
  | .register => some ⟨some action.entry.metadata, some (a.leaseEnd ks)⟩
  | .refresh =>
    some ⟨(ks.holding? (action.entry.key a.basePath)).elim (some action.entry.metadata)
      Holding.text?, some (a.leaseEnd ks)⟩
  | .deregister => none

theorem resolve_eq {a : Announcer} {stored : List (String × String)}
    (h : (entriesWithPrefix b (ServiceEntry.keyBase a.basePath) s).1 = .ok stored) :
    (a.resolve b s).1 = .ok (snapshotOf stored) := by
  rw [resolve]
  generalize entriesWithPrefix b (ServiceEntry.keyBase a.basePath) s = entries at h ⊢
  obtain ⟨entries, s'⟩ := entries
  cases h
  rfl

theorem wholeSeconds_lifetime (a : Announcer) :
    wholeSeconds a.lifetime = .ok (a.lifetime / 1000) :=
  wholeSeconds_eq_ok (Nat.le_max_right _ _)

/-- Giving a key a new deadline does to it what a refresh does, if it is there. -/
theorem after_expire (a : Announcer) (ks : Keyspace) (e : ServiceEntry) :
    ks.after (.expire (e.key a.basePath) (a.lifetime / 1000)) =
      if (ks.holding? (e.key a.basePath)).isSome then
        ks.set (e.key a.basePath) (a.leaves ks ⟨.refresh, e⟩)
      else ks := by
  cases hholding : ks.holding? (e.key a.basePath) with
  | none => exact Keyspace.set_eq_self ks _ (by rw [hholding]; rfl)
  | some h => simp only [Keyspace.after, leaves, leaseEnd, hholding]; rfl

end Announcer

namespace Documented

variable (hb : Documented b view IsUp) {a : Announcer} {e : ServiceEntry}
  {outcome : Except Failure Unit}
include hb

theorem view_register (h : a.register b e s = (outcome, s')) :
    view s' = (view s).set (e.key a.basePath) (a.leaves (view s) ⟨.register, e⟩) ∨
    outcome ≠ .ok () ∧ view s' = view s := by
  rw [Announcer.register, putExpiring, a.wholeSeconds_lifetime] at h
  simp only at h
  split at h <;> cases h
  next hperform => exact (hb.fails hperform).elim (fun h => .inr ⟨nofun, h⟩) .inl
  next hperform => exact .inl (hb.carriesOut hperform).1

theorem view_extend {found : Except Failure Bool}
    (h : extend b (e.key a.basePath) a.lifetime s = (found, s')) :
    (view s' = view s ∨ view s' = (view s).after (.expire (e.key a.basePath) (a.lifetime / 1000))) ∧
    ∀ was, found = .ok was → was = ((view s).holding? (e.key a.basePath)).isSome ∧
      view s' = (view s).after (.expire (e.key a.basePath) (a.lifetime / 1000)) := by
  rw [extend, a.wholeSeconds_lifetime] at h
  simp only at h
  split_ifs at h
  · cases h
    exact ⟨.inl rfl, nofun⟩
  split at h <;> cases h
  next hperform => exact ⟨hb.fails hperform, nofun⟩
  next hperform =>
    obtain ⟨hview, hpermits⟩ := hb.carriesOut hperform
    cases hpermits
    exact ⟨.inr hview, fun _ hwas => by cases hwas; exact ⟨rfl, hview⟩⟩
  next hperform => exact ⟨.inr (hb.carriesOut hperform).1, nofun⟩

theorem view_refresh (h : a.refresh b e s = (outcome, s')) :
    view s' = (view s).set (e.key a.basePath) (a.leaves (view s) ⟨.refresh, e⟩) ∨
    outcome ≠ .ok () ∧ view s' = view s := by
  rw [Announcer.refresh] at h
  split at h
  next f s₁ hextend =>
    cases h
    obtain hsame | hexpire := (hb.view_extend hextend).1
    · exact .inr ⟨nofun, hsame⟩
    rw [a.after_expire] at hexpire
    split_ifs at hexpire
    · exact .inl hexpire
    · exact .inr ⟨nofun, hexpire⟩
  next s₁ hextend =>
    cases h
    obtain ⟨hfound, hexpire⟩ := (hb.view_extend hextend).2 true rfl
    rw [a.after_expire, if_pos hfound.symm] at hexpire
    exact .inl hexpire
  next s₁ hextend =>
    obtain ⟨hfound, hexpire⟩ := (hb.view_extend hextend).2 false rfl
    have hnone : (view s).holding? (e.key a.basePath) = none := by simpa using hfound.symm
    rw [a.after_expire, ← hfound, if_neg Bool.false_ne_true] at hexpire
    -- the key is gone, so that a refresh leaves behind what an announcement does
    have hleaves : a.leaves (view s) ⟨.refresh, e⟩ = a.leaves (view s) ⟨.register, e⟩ := by
      simp only [Announcer.leaves, hnone, Option.elim]
    rw [hleaves, ← hexpire]
    exact hb.view_register h

theorem view_deregister (h : a.deregister b e s = (outcome, s')) :
    view s' = (view s).set (e.key a.basePath) none ∨
    outcome ≠ .ok () ∧ view s' = view s := by
  rw [Announcer.deregister, remove] at h
  split at h <;> cases h
  next hperform => exact (hb.fails hperform).elim (fun h => .inr ⟨nofun, h⟩) .inl
  next hperform => exact .inl (hb.carriesOut hperform).1

/-- An action is carried out on its own key and on no other; one that fails may not be carried
out. -/
theorem view_act {action : RegistryAction} (h : a.act b action s = (outcome, s')) :
    view s' = (view s).set (action.entry.key a.basePath) (a.leaves (view s) action) ∨
    outcome ≠ .ok () ∧ view s' = view s := by
  obtain ⟨verb, e⟩ := action
  cases verb with
  | register => exact hb.view_register h
  | refresh => exact hb.view_refresh h
  | deregister => exact hb.view_deregister h

theorem now_act {action : RegistryAction} (h : a.act b action s = (outcome, s')) :
    (view s').now = (view s).now := by
  obtain hview | ⟨-, hview⟩ := hb.view_act h <;> rw [hview]
  rfl

theorem holding?_act_of_ne {action : RegistryAction} (h : a.act b action s = (outcome, s'))
    {k : String} (hk : k ≠ action.entry.key a.basePath) :
    (view s').holding? k = (view s).holding? k := by
  obtain hview | ⟨-, hview⟩ := hb.view_act h <;> rw [hview]
  exact Keyspace.holding?_set_of_ne _ _ hk

/-- Resolving lists the keys under the base path that are there, each once, and reads those that
hold texts. -/
theorem resolve_eq (hbase : IsLiteral a.basePath) (hup : IsUp s) :
    ∃ keys : List String, keys.Nodup ∧
      (∀ k, k ∈ keys ↔ (ServiceEntry.keyBase a.basePath).toList <+: k.toList ∧
        ((view s).holding? k).isSome = true) ∧
      (a.resolve b s).1 =
        .ok (Announcer.snapshotOf (keys.filterMap fun k => ((view s).text? k).map (k, ·))) := by
  obtain ⟨listed, s₁, hpages, hup₁⟩ := hb.ends (ServiceEntry.keyBase a.basePath ++ "*") hup
  refine ⟨distinct listed, nodup_distinct listed, fun k => ?_, ?_⟩
  · rw [mem_distinct]
    exact hb.lists (isLiteral_keyBase hbase) hpages k
  · exact Announcer.resolve_eq (hpages.entriesWithPrefix_eq (hb.getMany_of_pages hpages hup₁))

end Documented

end ChatRelay.Redis
