import ChatRelay.Proofs.Membership.Bucket
import Mathlib.Data.List.Induction
import Mathlib.Data.Set.Card

/-!
# The user index of a bucket

When a channel is removed, a bucket compares it with the channel that is registered at that moment.
That is enough to make the index a function of what was done: a user is registered with the channel
of the latest registration that succeeded, until this very channel is removed. The removal of a
channel whose place another one has taken evicts nobody, however late it comes.

The comparison can be trusted because a registered channel carries the user that it is registered
for (`Owned`): a channel is registered once at most, and carries its user from then on. Nothing is
assumed about rooms, links or mail.
-/

namespace ChatRelay

namespace Roster

variable {s s' : Roster} {c : ChannelRef} {r : RoomRef}

/-- The user that a channel carries. -/
def user? (s : Roster) (c : ChannelRef) : Option UserId :=
  (s.channel? c).map Channel.user

theorem user?_of_channel? {channel : Channel} (h : s.channel? c = some channel) :
    s.user? c = some channel.user := by
  rw [user?, h, Option.map_some]

theorem exists_channel_of_user? (h : (s.user? c).isSome = true) :
    ∃ channel, s.channel? c = some channel := by
  rw [user?, Option.isSome_map] at h
  exact Option.isSome_iff_exists.mp h

theorem user?_modifyChannel {f : Channel → Channel} (hf : ∀ ch, (f ch).user = ch.user)
    (s : Roster) (c c' : ChannelRef) : (s.modifyChannel c f).user? c' = s.user? c' :=
  map_channel?_modifyChannel hf s c c'

theorem user?_of_carried? (h : s'.carried? c = s.carried? c) : s'.user? c = s.user? c := by
  have huser : ∀ (ch : Channel) link, ({ ch with link } : Channel).user = ch.user := fun _ _ => rfl
  rw [user?, user?, ← map_carried? huser, ← map_carried? huser, h]

theorem user?_remove (s : Roster) (r : RoomRef) (c c' : ChannelRef) :
    (s.remove r c).2.user? c' = s.user? c' :=
  user?_of_carried? (s.carried?_remove r c c')

end Roster

namespace Bucket

variable {b b' : Bucket} {s s' : Roster} {user user' : UserId} {room : RoomId} {c : ChannelRef}
  {channel : Channel}

/-! ## Rooms do not matter -/

theorem openRoom_carried (h : b.openRoom s room c = .ok (b', s')) :
    b' = { b with rooms := b'.rooms } ∧ ∀ c', s'.carried? c' = s.carried? c' := by
  unfold openRoom at h
  cases hput : (s.addRoom (.new room)).2.put (s.addRoom (.new room)).1 c with
  | error e => simp [hput, Except.map] at h
  | ok s₁ =>
    simp only [hput, Except.map, Except.ok.injEq, Prod.mk.injEq] at h
    obtain ⟨rfl, rfl⟩ := h
    refine ⟨rfl, fun c' => ?_⟩
    have hentered : s₁.carried? c' = s.carried? c' := Roster.carried?_put hput c'
    cases b.lookupRoom room with
    | none => exact hentered
    | some old => exact hentered

theorem enterRoom_carried (h : b.enterRoom s room c = .ok (b', s')) :
    b' = { b with rooms := b'.rooms } ∧ ∀ c', s'.carried? c' = s.carried? c' := by
  unfold enterRoom at h
  split at h
  next => exact openRoom_carried h
  next =>
    split at h
    next hput =>
      cases h
      exact ⟨rfl, Roster.carried?_put hput⟩
    next => exact openRoom_carried h

theorem leaveRoom_carried (b : Bucket) (s : Roster) (c : ChannelRef) :
    (b.leaveRoom s c).2.1 = { b with rooms := (b.leaveRoom s c).2.1.rooms } ∧
      ∀ c', (b.leaveRoom s c).2.2.carried? c' = s.carried? c' := by
  unfold leaveRoom
  split
  next => exact ⟨rfl, fun _ => rfl⟩
  next r room _ =>
    dsimp only
    split
    next => exact ⟨rfl, s.carried?_remove r c⟩
    next => exact ⟨rfl, s.carried?_remove r c⟩

theorem carried?_remove (b : Bucket) (s : Roster) (c c' : ChannelRef) :
    (b.remove s c).2.2.carried? c' = s.carried? c' := by
  unfold remove
  split
  next => rfl
  next channel _ =>
    split
    next => exact (leaveRoom_carried _ s c).2 c'
    next => rfl

/-! ## One operation -/

/-- What a bucket is called for. The teardown of a channel may begin at any time between; from then
on the bucket refuses the channel. -/
inductive Op where
  | put (user : UserId) (room : RoomId) (c : ChannelRef)
  | remove (c : ChannelRef)
  | beginClose (c : ChannelRef)
  deriving DecidableEq

/-- Carry out an operation, and tell why it was refused, if it was. -/
def act (b : Bucket) (s : Roster) : Op → Option BucketError × Bucket × Roster
  | .put user room c =>
    match b.put s user room c with
    | .error e => (some e, b, s)
    | .ok (b, s) => (none, b, s)
  | .remove c => (none, (b.remove s c).2)
  | .beginClose c => (none, b, (s.beginClose c).2)

/-- A registration is for a user, and of a channel that there is. -/
def Op.Fits (s : Roster) : Op → Prop
  | .put user _ c => user.isUnassigned = false ∧ ∃ channel, s.channel? c = some channel
  | .remove _ | .beginClose _ => True

/-- A registered channel carries the user that it is registered for. -/
def Owned (b : Bucket) (s : Roster) : Prop :=
  ∀ user c, b.lookupUser user = some c → s.user? c = some user ∧ user.isUnassigned = false

theorem owned_new (id : Nat) (config : BucketConfig) (s : Roster) : (new id config).Owned s := by
  intro user c h
  cases h

theorem Owned.congr (h : b.Owned s) (hlookup : ∀ user, b'.lookupUser user = b.lookupUser user)
    (husers : ∀ c, s'.user? c = s.user? c) : b'.Owned s' := by
  intro user c hu
  rw [hlookup] at hu
  rw [husers]
  exact h user c hu

/-- A registration that succeeds is of a channel that has not joined before, which carries the user
afterwards. -/
theorem put_ok (hc : s.channel? c = some channel) (h : b.put s user room c = .ok (b', s')) :
    channel.isJoined = false ∧ b'.users = b.users.insert user c ∧
      ∀ c', s'.user? c' = if c' = c then some user else s.user? c' := by
  simp only [put, hc] at h
  split at h
  next => cases h
  next hj =>
    split at h
    next => cases h
    next =>
      split at h
      next => cases h
      next b₁ s₁ hentered =>
        simp only [Except.ok.injEq, Prod.mk.injEq] at h
        obtain ⟨rfl, rfl⟩ := h
        have hrooms : b₁.users = b.users ∧ ∀ c', s₁.user? c' = s.user? c' := by
          split at hentered
          next =>
            obtain ⟨hb, hcarried⟩ := enterRoom_carried hentered
            exact ⟨by rw [hb], fun c' => Roster.user?_of_carried? (hcarried c')⟩
          next =>
            cases hentered
            exact ⟨rfl, fun _ => rfl⟩
        obtain ⟨husers, hcarried⟩ := hrooms
        refine ⟨by simpa using hj, by rw [husers], fun c' => ?_⟩
        have hjoined : ∀ ch : Channel, (ch.setJoined user room).user = user := fun _ => rfl
        by_cases he : c' = c
        · have hsome : (s₁.user? c).isSome = true := by
            rw [hcarried, Roster.user?_of_channel? hc, Option.isSome_some]
          rw [he, if_pos rfl, Roster.user?, Roster.channel?_modifyChannel, if_pos rfl]
          rw [Roster.user?] at hsome
          cases hch : s₁.channel? c with
          | none => simp [hch] at hsome
          | some ch => rw [Option.map_some, Option.map_some, hjoined]
        · rw [if_neg he, Roster.user?, Roster.channel?_modifyChannel, if_neg he]
          exact hcarried c'

/-- A removal takes the channel out of the index wherever it is registered, and nobody else. -/
theorem lookupUser_remove (h : b.Owned s) (c : ChannelRef) (user : UserId) :
    (b.remove s c).2.1.lookupUser user =
      if b.lookupUser user = some c then none else b.lookupUser user := by
  unfold remove
  cases hc : s.channel? c with
  | none =>
    have hne : b.lookupUser user ≠ some c := by
      intro hu
      have hcarried := (h user c hu).1
      rw [Roster.user?, hc] at hcarried
      cases hcarried
    rw [if_neg hne]
  | some channel =>
    have hcarried : ∀ user, b.lookupUser user = some c →
        channel.user = user ∧ channel.isJoined = true := by
      intro user hu
      obtain ⟨hcu, hassigned⟩ := h user c hu
      rw [Roster.user?_of_channel? hc] at hcu
      obtain rfl := Option.some.inj hcu
      exact ⟨rfl, by rw [Channel.isJoined, hassigned]; rfl⟩
    cases hj : channel.isJoined with
    | false =>
      have hne : b.lookupUser user ≠ some c := by
        intro hu
        have hjoined := (hcarried user hu).2
        rw [hj] at hjoined
        cases hjoined
      simp [hj, hne]
    | true =>
      have hleft : ((b.unregister channel.user c).leaveRoom s c).2.1.users =
          (b.unregister channel.user c).users := by
        rw [((b.unregister channel.user c).leaveRoom_carried s c).1]
      have hlookup : ((b.unregister channel.user c).leaveRoom s c).2.1.lookupUser user =
          (b.unregister channel.user c).lookupUser user := by
        rw [lookupUser, hleft, lookupUser]
      simp only [hj, if_true]
      change ((b.unregister channel.user c).leaveRoom s c).2.1.lookupUser user = _
      rw [hlookup, lookupUser_unregister]
      by_cases hu : b.lookupUser user = some c
      · obtain ⟨rfl, -⟩ := hcarried user hu
        simp [hu]
      · rw [if_neg hu, if_neg]
        rintro ⟨rfl, hu'⟩
        exact hu hu'

theorem user?_remove (b : Bucket) (s : Roster) (c c' : ChannelRef) :
    (b.remove s c).2.2.user? c' = s.user? c' :=
  Roster.user?_of_carried? (b.carried?_remove s c c')

theorem Op.Fits.congr {op : Op} (h : op.Fits s)
    (hsome : ∀ c, (s'.user? c).isSome = (s.user? c).isSome) : op.Fits s' := by
  cases op with
  | put user room c =>
    obtain ⟨hassigned, channel, hc⟩ := h
    refine ⟨hassigned, Roster.exists_channel_of_user? ?_⟩
    rw [hsome, Roster.user?_of_channel? hc, Option.isSome_some]
  | remove | beginClose => trivial

theorem user?_beginClose (s : Roster) (c c' : ChannelRef) :
    (s.beginClose c).2.user? c' = s.user? c' := by
  rw [Roster.beginClose_snd]
  have huser : ∀ ch : Channel, ({ ch with isClosing := true } : Channel).user = ch.user :=
    fun _ => rfl
  exact Roster.user?_modifyChannel huser s c c'

/-- What an operation, told with its refusal, does to the index: it enters or takes out nobody but
the channel that it names. -/
structure Indexes (b : Bucket) (s : Roster) (entry : Op × Option BucketError) (b' : Bucket)
    (s' : Roster) : Prop where
  owned : b'.Owned s'
  known : ∀ c, (s'.user? c).isSome = (s.user? c).isSome
  lookupUser : ∀ user c, b'.lookupUser user = some c ↔
    (∃ room, entry = (.put user room c, none)) ∨
      b.lookupUser user = some c ∧ (∀ room c', entry ≠ (.put user room c', none)) ∧
        entry.1 ≠ .remove c

theorem indexes_put (h : b.Owned s) (hc : s.channel? c = some channel)
    (hassigned : user.isUnassigned = false) (hput : b.put s user room c = .ok (b', s')) :
    b.Indexes s (.put user room c, none) b' s' := by
  obtain ⟨hfresh, husers, hcarried⟩ := put_ok hc hput
  have hlookup : ∀ user', b'.lookupUser user' =
      if user' = user then some c else b.lookupUser user' := by
    intro user'
    rw [Bucket.lookupUser, husers, Table.find?_insert]
    rfl
  refine ⟨?_, ?_, ?_⟩
  · intro user' c' hu
    rw [hlookup] at hu
    rw [hcarried]
    split at hu
    next he =>
      obtain rfl := Option.some.inj hu
      rw [if_pos rfl, he]
      exact ⟨rfl, hassigned⟩
    next =>
      obtain ⟨hcu, hassigned'⟩ := h user' c' hu
      -- A channel that is registered has joined, so it is not the one that joins now.
      have hne : c' ≠ c := by
        rintro rfl
        rw [Roster.user?_of_channel? hc] at hcu
        obtain rfl := Option.some.inj hcu
        rw [Channel.isJoined, hassigned'] at hfresh
        cases hfresh
      rw [if_neg hne]
      exact ⟨hcu, hassigned'⟩
  · intro c'
    rw [hcarried]
    split
    next he => rw [he, Roster.user?_of_channel? hc, Option.isSome_some, Option.isSome_some]
    next => rfl
  · intro user' c'
    rw [hlookup]
    by_cases hu : user' = user
    · subst hu
      simp [eq_comm]
    · simp [hu, Ne.symm hu]

theorem indexes_remove (h : b.Owned s) (c : ChannelRef) :
    b.Indexes s (.remove c, none) (b.remove s c).2.1 (b.remove s c).2.2 := by
  have hlookup := lookupUser_remove h c
  refine ⟨?_, ?_, ?_⟩
  · intro user c' hu
    rw [hlookup] at hu
    rw [user?_remove]
    split at hu
    next => cases hu
    next => exact h user c' hu
  · intro c'
    rw [user?_remove]
  · intro user c'
    rw [hlookup]
    by_cases hu : b.lookupUser user = some c
    · simp [hu, eq_comm]
    · have hne : b.lookupUser user = some c' → c ≠ c' := by
        rintro hu' rfl
        exact hu hu'
      simpa [hu] using hne

/-- An operation that is no removal and enters nobody leaves the index as it is. -/
theorem indexes_of_same (h : b.Owned s) {entry : Op × Option BucketError}
    (husers : ∀ c, s'.user? c = s.user? c) (hput : ∀ user room c, entry ≠ (.put user room c, none))
    (hremove : ∀ c, entry.1 ≠ .remove c) : b.Indexes s entry b s' where
  owned := h.congr (fun _ => rfl) husers
  known c := by rw [husers]
  lookupUser user c := by simp [hput, hremove]

theorem indexes_act (h : b.Owned s) {op : Op} (hop : op.Fits s) :
    b.Indexes s (op, (b.act s op).1) (b.act s op).2.1 (b.act s op).2.2 := by
  cases op with
  | put user room c =>
    obtain ⟨hassigned, channel, hc⟩ := hop
    cases hput : b.put s user room c with
    | error e =>
      simp only [act, hput]
      exact indexes_of_same h (fun _ => rfl) (by simp) (by simp)
    | ok bs =>
      simp only [act, hput]
      exact indexes_put h hc hassigned hput
  | remove c => exact indexes_remove h c
  | beginClose c => exact indexes_of_same h (user?_beginClose s c) (by simp [act]) (by simp)

/-! ## A run -/

/-- The bucket and the roster after a list of operations. -/
def after (b : Bucket) (s : Roster) (ops : List Op) : Bucket × Roster :=
  ops.foldl (fun bs op => (bs.1.act bs.2 op).2) (b, s)

/-- The operations, each with the reason why it was refused, if it was. -/
def history (b : Bucket) (s : Roster) : List Op → List (Op × Option BucketError)
  | [] => []
  | op :: ops => (op, (b.act s op).1) :: history (b.act s op).2.1 (b.act s op).2.2 ops

theorem after_concat (b : Bucket) (s : Roster) (ops : List Op) (op : Op) :
    b.after s (ops ++ [op]) = ((b.after s ops).1.act (b.after s ops).2 op).2 :=
  List.foldl_concat ..

theorem history_concat (b : Bucket) (s : Roster) (ops : List Op) (op : Op) :
    b.history s (ops ++ [op]) =
      b.history s ops ++ [(op, ((b.after s ops).1.act (b.after s ops).2 op).1)] := by
  induction ops generalizing b s with
  | nil => rfl
  | cons first ops ih =>
    rw [List.cons_append, history, history, ih, List.cons_append]
    rfl

/-- By a history, the channel is that of the latest registration for the user that succeeded, and
it has not been removed since. -/
def Registers (history : List (Op × Option BucketError)) (user : UserId) (c : ChannelRef) : Prop :=
  ∃ before room after, history = before ++ (.put user room c, none) :: after ∧
    (∀ room' c', (.put user room' c', none) ∉ after) ∧ ∀ refusal, (.remove c, refusal) ∉ after

theorem registers_concat {history : List (Op × Option BucketError)}
    {entry : Op × Option BucketError} : Registers (history ++ [entry]) user c ↔
      (∃ room, entry = (.put user room c, none)) ∨ Registers history user c ∧
        (∀ room c', entry ≠ (.put user room c', none)) ∧ entry.1 ≠ .remove c := by
  constructor
  · rintro ⟨before, room, after, he, hput, hremove⟩
    rcases List.eq_nil_or_concat after with rfl | ⟨after', last, rfl⟩
    · left
      exact ⟨room, List.singleton_inj.mp (List.append_inj' he rfl).2⟩
    · right
      rw [List.concat_eq_append] at he hput hremove
      rw [← List.cons_append, ← List.append_assoc] at he
      obtain ⟨rfl, hlast⟩ := List.append_inj' he rfl
      obtain rfl := List.singleton_inj.mp hlast
      refine ⟨⟨before, room, after', rfl, ?_, ?_⟩, ?_, ?_⟩
      · intro room' c' hmem
        exact hput room' c' (List.mem_append_left _ hmem)
      · intro refusal hmem
        exact hremove refusal (List.mem_append_left _ hmem)
      · rintro room' c' rfl
        exact hput room' c' (List.mem_append_right _ (List.mem_singleton_self _))
      · intro he
        refine hremove entry.2 (List.mem_append_right _ (List.mem_singleton.mpr ?_))
        rw [← he]
  · rintro (⟨room, rfl⟩ | ⟨⟨before, room, after, rfl, hput, hremove⟩, hnoput, hnoremove⟩)
    · exact ⟨history, room, [], rfl, fun _ _ => List.not_mem_nil, fun _ => List.not_mem_nil⟩
    · refine ⟨before, room, after ++ [entry], by simp, ?_, ?_⟩
      · intro room' c' hmem
        rcases List.mem_append.mp hmem with hmem | hmem
        · exact hput room' c' hmem
        · exact hnoput room' c' (List.mem_singleton.mp hmem).symm
      · intro refusal hmem
        rcases List.mem_append.mp hmem with hmem | hmem
        · exact hremove refusal hmem
        · exact hnoremove (congrArg Prod.fst (List.mem_singleton.mp hmem).symm)

/-- The number of registered users is the number of users that have an entry. -/
theorem encard_registered (b : Bucket) :
    {user | (b.lookupUser user).isSome = true}.encard = b.channelCount := by
  have hkeys :
      {user | (b.lookupUser user).isSome = true} = (b.users.keys.toFinset : Set UserId) := by
    ext user
    simp [lookupUser, Table.mem_keys]
  have hnodup : b.users.keys.Nodup := b.users.nodup
  rw [hkeys, Set.encard_coe_eq_coe_finsetCard, List.toFinset_card_of_nodup hnodup, Table.keys,
    List.length_map]
  rfl

/-- What holds after a run: the index tells what the history tells. -/
theorem run_spec (h : b.Owned s) (hempty : ∀ user, b.lookupUser user = none) (ops : List Op)
    (hops : ∀ op ∈ ops, op.Fits s) :
    (b.after s ops).1.Owned (b.after s ops).2 ∧
      (∀ c, ((b.after s ops).2.user? c).isSome = (s.user? c).isSome) ∧
      ∀ user c, (b.after s ops).1.lookupUser user = some c ↔
        Registers (b.history s ops) user c := by
  induction ops using List.reverseRecOn with
  | nil =>
    refine ⟨h, fun _ => rfl, fun user c => ?_⟩
    constructor
    · intro hu
      rw [after, List.foldl_nil, hempty] at hu
      cases hu
    · rintro ⟨before, room, after, he, -⟩
      simp [history] at he
  | append_singleton ops op ih =>
    obtain ⟨howned, hknown, hlookup⟩ := ih fun op hop => hops op (List.mem_append_left _ hop)
    have hop : op.Fits (b.after s ops).2 :=
      (hops op (List.mem_append_right _ (List.mem_singleton_self op))).congr hknown
    have hstep := indexes_act howned hop
    rw [after_concat, history_concat]
    refine ⟨hstep.owned, fun c => (hstep.known c).trans (hknown c), fun user c => ?_⟩
    rw [hstep.lookupUser, registers_concat, hlookup]

/-- Whatever is done to a bucket that starts empty: the channel that is registered for a user is
that of the latest registration for the user that succeeded, as long as it has not been removed;
the removal of any other channel leaves it registered; and as many channels are counted as there
are such users. -/
theorem lookupUser_after_iff (id : Nat) (config : BucketConfig) (s : Roster) (ops : List Op)
    (hops : ∀ op ∈ ops, op.Fits s) :
    let history := (new id config).history s ops
    let b := ((new id config).after s ops).1
    let s' := ((new id config).after s ops).2
    (∀ user c, b.lookupUser user = some c ↔ Registers history user c) ∧
      (∀ user c c', Registers history user c → c' ≠ c →
        (b.remove s' c').2.1.lookupUser user = some c) ∧
      b.channelCount = {user | ∃ c, Registers history user c}.encard := by
  intro history b s'
  obtain ⟨howned, -, hlookup⟩ := run_spec (owned_new id config s) (fun _ => rfl) ops hops
  refine ⟨hlookup, ?_, ?_⟩
  · intro user c c' hregisters hne
    have hu : b.lookupUser user = some c := (hlookup user c).mpr hregisters
    have hkept : b.lookupUser user ≠ some c' := by
      rw [hu]
      exact fun he => hne (Option.some.inj he).symm
    rw [lookupUser_remove howned, if_neg hkept, hu]
  · rw [← encard_registered]
    congr 1
    ext user
    change (b.lookupUser user).isSome = true ↔ ∃ c, Registers history user c
    rw [Option.isSome_iff_exists]
    exact exists_congr (hlookup user)

/-- A user comes back over a second channel, a third one is refused because its teardown has begun,
and then the first one is removed, twice. The second one is still registered. -/
theorem lookupUser_after_iff_superseded :
    let s : Roster := ⟨[.new 1 8, .new 2 8, .new 3 8], []⟩
    let ops : List Op := [.put ⟨9⟩ ⟨3⟩ ⟨0⟩, .put ⟨9⟩ ⟨3⟩ ⟨1⟩, .beginClose ⟨2⟩, .put ⟨9⟩ ⟨3⟩ ⟨2⟩,
      .remove ⟨0⟩, .remove ⟨0⟩]
    (∀ op ∈ ops, op.Fits s) ∧
      Registers ((new 0 ⟨1, 8, 8, 1, 1⟩).history s ops) ⟨9⟩ ⟨1⟩ ∧
      {user | ∃ c, Registers ((new 0 ⟨1, 8, 8, 1, 1⟩).history s ops) user c}.encard = 1 := by
  intro s ops
  have hops : ∀ op ∈ ops, op.Fits s := by
    simp [ops, s, Op.Fits, Roster.channel?, UserId.isUnassigned]
  obtain ⟨hlookup, -, hcount⟩ := lookupUser_after_iff 0 ⟨1, 8, 8, 1, 1⟩ s ops hops
  refine ⟨hops, (hlookup _ _).mp (by decide +kernel), ?_⟩
  have hone : ((new 0 ⟨1, 8, 8, 1, 1⟩).after s ops).1.channelCount = 1 := by decide +kernel
  rw [← hcount, hone]
  rfl

end Bucket

end ChatRelay
