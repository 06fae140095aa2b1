import ChatRelay.Proofs.Membership.Regular

/-!
# Operations on different channels commute

Two operations on different channels can be exchanged without anybody noticing. What is noticed is
the channel of each user, which rooms there are, who is in them in which order, and what channels
carry (`SameView`). Which room object stands for an identifier, and where in it a member sits, may
well depend on the order: a room that one order keeps alive is closed and opened again by the other.

What a removal does to each of these observations is a function of the observation alone
(`Withdrawn`), and so is what a registration does (`Enrolled`). So the two orders are compared one
observation at a time.
-/

namespace ChatRelay

/-- The user that a channel has joined as. -/
def Roster.joinedUser? (s : Roster) (c : ChannelRef) : Option UserId :=
  ((s.carried? c).filter Channel.isJoined).map Channel.user

namespace Bucket

variable {b b' b₁ b₂ : Bucket} {s s' s₁ s₂ s₀ : Roster} {user : UserId} {id : RoomId}
  {a c c' : ChannelRef} {channel : Channel}

/-- Two buckets, each with its roster, that look the same. -/
structure SameView (bs bs' : Bucket × Roster) : Prop where
  lookupUser : ∀ user, bs.1.lookupUser user = bs'.1.lookupUser user
  isSome_lookupRoom : ∀ id, (bs.1.lookupRoom id).isSome = (bs'.1.lookupRoom id).isSome
  membersOf : ∀ id, bs.1.membersOf bs.2 id = bs'.1.membersOf bs'.2 id
  carried? : ∀ c, bs.2.carried? c = bs'.2.carried? c

/-- Where rooms have members, their members tell which rooms there are. -/
theorem Located.isSome_lookupRoom (h : b.Located s) (hp : s.Peopled) (id : RoomId) :
    (b.lookupRoom id).isSome = !(b.membersOf s id).isEmpty := by
  rw [membersOf]
  cases hr : b.lookupRoom id with
  | none => rfl
  | some r =>
    obtain ⟨room, hroom, -⟩ := (h.lookupRoom_iff id r).mp hr
    have hne : room.members ≠ [] := hp r room hroom
    rw [Option.elim_some, Roster.members, hroom, Option.elim_some]
    simp [hne]

/-! ## One removal -/

/-- What a removal does to what is noticed. -/
structure Withdrawn (b : Bucket) (s : Roster) (c : ChannelRef) (b' : Bucket) (s' : Roster) :
    Prop where
  located : b'.Located s'
  peopled : s.Peopled → s'.Peopled
  lookupUser : ∀ user, b'.lookupUser user =
    if s.joinedUser? c = some user ∧ b.lookupUser user = some c then none else b.lookupUser user
  membersOf : ∀ id, b'.membersOf s' id = (b.membersOf s id).erase c
  carried? : ∀ c', s'.carried? c' = s.carried? c'
  channel?_ne : ∀ c', c' ≠ c → s'.channel? c' = s.channel? c'

/-- A removal that changes nothing, of a channel that is nowhere. -/
theorem Located.withdrawn_self (h : b.Located s) (hj : s.joinedUser? c = none)
    (hmem : ∀ id, c ∉ b.membersOf s id) : b.Withdrawn s c b s where
  located := h
  peopled hp := hp
  lookupUser user := by simp [hj]
  membersOf id := (List.erase_of_not_mem (hmem id)).symm
  carried? _ := rfl
  channel?_ne _ _ := rfl

/-- A removal, provided that the channel has no link without having joined. -/
theorem Located.withdrawn (h : b.Located s)
    (hlink : ∀ channel, s.channel? c = some channel → channel.isJoined = false →
      channel.link = none) : b.Withdrawn s c (b.remove s c).2.1 (b.remove s c).2.2 := by
  obtain ⟨hunjoined, hremove⟩ | ⟨channel, closed, b', s', hc, hj, hremove, hp⟩ := h.remove_cases c
  · rw [hremove]
    refine h.withdrawn_self ?_ fun id hmem => ?_
    · rw [Roster.joinedUser?, Option.map_eq_none_iff, Option.filter_eq_none_iff]
      intro carried hcarried
      obtain ⟨channel, hc, rfl⟩ := Option.map_eq_some_iff.mp hcarried
      exact Bool.eq_false_iff.mp (hunjoined channel hc)
    · obtain ⟨channel, link, hc, hl, -⟩ := h.mem_membersOf_iff.mp hmem
      rw [hlink channel hc (hunjoined channel hc)] at hl
      cases hl
  · have huser : s.joinedUser? c = some channel.user := by
      rw [Roster.joinedUser?, Roster.carried?_of_channel? hc, Option.filter_some]
      exact congrArg (Option.map Channel.user) (if_pos hj)
    rw [hremove]
    refine ⟨hp.located h hc, hp.peopled, fun user => ?_, hp.membersOf h hc, hp.carried? hc,
      fun c' hne => ?_⟩
    · rw [hp.lookupUser, huser]
      by_cases hu : user = channel.user
      · simp [hu]
      · simp [hu, Ne.symm hu]
    · rw [hp.channel? hc, if_neg hne]

theorem Orderly.withdrawn (h : b.Orderly s) (c : ChannelRef) :
    b.Withdrawn s c (b.remove s c).2.1 (b.remove s c).2.2 :=
  h.toLocated.withdrawn fun _ hc hj => h.link_eq_none hc hj

theorem Withdrawn.joinedUser? (hw : b.Withdrawn s c b' s') (c' : ChannelRef) :
    s'.joinedUser? c' = s.joinedUser? c' := by
  rw [Roster.joinedUser?, hw.carried?, Roster.joinedUser?]

/-- A second removal finds nothing to undo. -/
theorem Orderly.remove_remove (h : b.Orderly s) (c : ChannelRef) :
    (b.remove s c).2.1.remove (b.remove s c).2.2 c =
      ((b.remove s c).1.map fun d => { d with roomClosed := false }, (b.remove s c).2) := by
  obtain ⟨-, hremove⟩ | ⟨channel, closed, b', s', hc, hj, hremove, hp⟩ := h.remove_cases c
  · rw [hremove]
    exact hremove
  · have hc' : s'.channel? c = some { channel with link := none } := by
      rw [hp.channel? hc, if_pos rfl]
    obtain ⟨closed', b'', s'', hremove', hp'⟩ :=
      (hp.located h.toLocated hc).remove_of_joined hc' hj
    rw [hremove]
    refine hremove'.trans ?_
    cases hp' with
    | inside hl => cases hl
    | outside =>
      have hgone : b'.lookupUser channel.user ≠ some c := by
        rw [hp.lookupUser]
        split
        next => exact nofun
        next hne => exact fun hu => hne ⟨rfl, hu⟩
      rw [unregister, if_neg hgone]
      rfl

/-! ## Two operations -/

theorem SameView.of_located (h₁ : b₁.Located s₁) (hp₁ : s₁.Peopled) (h₂ : b₂.Located s₂)
    (hp₂ : s₂.Peopled) (hlookup : ∀ user, b₁.lookupUser user = b₂.lookupUser user)
    (hmembers : ∀ id, b₁.membersOf s₁ id = b₂.membersOf s₂ id)
    (hcarried : ∀ c, s₁.carried? c = s₂.carried? c) : SameView (b₁, s₁) (b₂, s₂) where
  lookupUser := hlookup
  isSome_lookupRoom id := by
    rw [h₁.isSome_lookupRoom hp₁, h₂.isSome_lookupRoom hp₂, hmembers]
  membersOf := hmembers
  carried? := hcarried

/-- Two removals, in either order. -/
theorem Withdrawn.comm {b₁' b₂' : Bucket} {s₁' s₂' : Roster} (hne : a ≠ c) (hp : s.Peopled)
    (ha : b.Withdrawn s a b₁ s₁) (hac : b₁.Withdrawn s₁ c b₁' s₁') (hc : b.Withdrawn s c b₂ s₂)
    (hca : b₂.Withdrawn s₂ a b₂' s₂') : SameView (b₁', s₁') (b₂', s₂') := by
  refine .of_located hac.located (hac.peopled (ha.peopled hp)) hca.located
    (hca.peopled (hc.peopled hp)) (fun user => ?_) (fun id => ?_) fun c' => ?_
  · rw [hac.lookupUser, hca.lookupUser, ha.joinedUser?, hc.joinedUser?, ha.lookupUser,
      hc.lookupUser]
    by_cases hu : b.lookupUser user = some a
    · simp [hu, hne]
    · simp [hu]
  · rw [hac.membersOf, hca.membersOf, ha.membersOf, hc.membersOf, List.erase_comm]
  · rw [hac.carried?, hca.carried?, ha.carried?, hc.carried?]

/-- A removal and a registration, in either order. -/
theorem Withdrawn.comm_enrolled {b₁' b₂' : Bucket} {s₁' s₂' : Roster} (hne : a ≠ c)
    (hp : s.Peopled) (h : b.Located s) (hc : s.channel? c = some channel)
    (hlink : channel.link = none) (ha : b.Withdrawn s a b₁ s₁)
    (hac : b₁.Enrolled s₁ user id c b₁' s₁') (he : b.Enrolled s user id c b₂ s₂)
    (hca : b₂.Withdrawn s₂ a b₂' s₂') : SameView (b₁', s₁') (b₂', s₂') := by
  have hc₁ : s₁.channel? c = some channel := by rw [ha.channel?_ne c hne.symm, hc]
  have hcarried : s₂.carried? a = s.carried? a := by rw [he.carried? hc, if_neg hne]
  refine .of_located (hac.located ha.located hc₁ hlink) (hac.peopled (ha.peopled hp)) hca.located
    (hca.peopled (he.peopled hp)) (fun user' => ?_) (fun id' => ?_) fun c' => ?_
  · rw [hac.lookupUser, hca.lookupUser, Roster.joinedUser?, hcarried, he.lookupUser,
      ha.lookupUser]
    -- Where the new channel is registered, the comparison with the old one fails.
    by_cases hu : user' = user
    · simp [hu, hne.symm]
    · rw [if_neg hu, if_neg hu, Roster.joinedUser?]
  · rw [hac.membersOf ha.located, hca.membersOf, he.membersOf h, ha.membersOf, ha.membersOf]
    split
    next => rw [List.erase_cons_tail (by simpa using hne.symm)]
    next => rfl
  · rw [hac.carried? hc₁, hca.carried?, he.carried? hc, ha.carried?]

theorem Regular.removals_commute (h : Regular s₀ b s) (hne : a ≠ c) :
    SameView (b.after s [.remove a, .remove c]) (b.after s [.remove c, .remove a]) :=
  Withdrawn.comm hne h.peopled (h.orderly.withdrawn a) ((h.orderly.remove a).withdrawn c)
    (h.orderly.withdrawn c) ((h.orderly.remove c).withdrawn a)

/-- A removal makes no difference to whether another channel is registered, and the result looks
the same in either order. -/
theorem Regular.remove_put_comm (h : Regular s₀ b s) (hne : a ≠ c) (user : UserId) (id : RoomId) :
    ((b.remove s a).2.1.act (b.remove s a).2.2 (.put user id c)).1 =
        (b.act s (.put user id c)).1 ∧
      SameView (b.after s [.remove a, .put user id c]) (b.after s [.put user id c, .remove a]) := by
  have ha := h.orderly.withdrawn a
  have horderly := h.orderly.remove a
  change _ ∧ SameView ((b.remove s a).2.1.act (b.remove s a).2.2 (.put user id c)).2
    ((b.act s (.put user id c)).2.1.remove (b.act s (.put user id c)).2.2 a).2
  generalize hremove : b.remove s a = removed at *
  -- Where the registration changes nothing, the two orders lead to the same state.
  have hsame : ∀ answer, b.act s (.put user id c) = (answer, b, s) →
      removed.2.1.act removed.2.2 (.put user id c) = (answer, removed.2) →
      (removed.2.1.act removed.2.2 (.put user id c)).1 = (b.act s (.put user id c)).1 ∧
        SameView (removed.2.1.act removed.2.2 (.put user id c)).2
          ((b.act s (.put user id c)).2.1.remove (b.act s (.put user id c)).2.2 a).2 := by
    intro answer hact hact'
    rw [hact, hact', hremove]
    exact ⟨rfl, fun _ => rfl, fun _ => rfl, fun _ => rfl, fun _ => rfl⟩
  cases hc : s.channel? c with
  | none =>
    refine hsame none (act_put_of_unknown hc user id) (act_put_of_unknown ?_ user id)
    rw [ha.channel?_ne c hne.symm, hc]
  | some channel =>
    have hc' : removed.2.2.channel? c = some channel := by rw [ha.channel?_ne c hne.symm, hc]
    cases hj : channel.isJoined with
    | true =>
      exact hsame _ (act_put_of_joined hc hj user id) (act_put_of_joined hc' hj user id)
    | false =>
      cases hcl : channel.isClosing with
      | true =>
        exact hsame _ (act_put_of_closing hc hj hcl user id) (act_put_of_closing hc' hj hcl user id)
      | false =>
        obtain ⟨b₂, s₂, -, hact, he⟩ := h.orderly.act_put_of_open hc hj hcl user id
        obtain ⟨b₁', s₁', -, hact', he'⟩ := horderly.act_put_of_open hc' hj hcl user id
        have hlink := h.orderly.link_eq_none hc hj
        rw [hact, hact']
        refine ⟨rfl, ha.comm_enrolled hne h.peopled h.orderly.toLocated hc hlink he' he ?_⟩
        refine (he.located h.orderly.toLocated hc hlink).withdrawn fun channel' hca hja => ?_
        obtain ⟨_, hchannels⟩ := he.channel? hc
        rw [hchannels, if_neg hne] at hca
        exact h.orderly.link_eq_none hca hja

/-- Whatever a bucket was called for before, operations on different channels can be exchanged: of
two removals, and of a removal and a registration, either may come first, and what is noticed is the
same, as is the answer to the registration. A second removal changes nothing and reports no room
closed. -/
theorem operations_commute (hs : s₀.Unjoined) (i : Nat) (config : BucketConfig) (ops : List Op)
    (hops : ∀ op ∈ ops, op.Fits s₀) :
    let b := ((new i config).after s₀ ops).1
    let s := ((new i config).after s₀ ops).2
    (∀ a c, a ≠ c →
      SameView (b.after s [.remove a, .remove c]) (b.after s [.remove c, .remove a]) ∧
      ∀ user id,
        ((b.remove s a).2.1.act (b.remove s a).2.2 (.put user id c)).1 =
          (b.act s (.put user id c)).1 ∧
        SameView (b.after s [.remove a, .put user id c])
          (b.after s [.put user id c, .remove a])) ∧
    ∀ a, (b.remove s a).2.1.remove (b.remove s a).2.2 a =
      ((b.remove s a).1.map fun d => { d with roomClosed := false }, (b.remove s a).2) := by
  intro b s
  have h : Regular s₀ b s := regular_after hs i config hops
  exact ⟨fun a c hne => ⟨h.removals_commute hne, h.remove_put_comm hne⟩, h.orderly.remove_remove⟩

/-- A user comes back to a room over a second channel, before the only channel there is removed or
after. The two orders end in different room objects, and look the same. -/
theorem operations_commute_superseded :
    let s₀ : Roster := ⟨[.new 1 8, .new 2 8], []⟩
    let ops : List Op := [.put ⟨9⟩ ⟨7⟩ ⟨0⟩]
    let b := ((new 0 ⟨1, 8, 8, 1, 1⟩).after s₀ ops).1
    let s := ((new 0 ⟨1, 8, 8, 1, 1⟩).after s₀ ops).2
    let early := b.after s [.remove ⟨0⟩, .put ⟨9⟩ ⟨7⟩ ⟨1⟩]
    let late := b.after s [.put ⟨9⟩ ⟨7⟩ ⟨1⟩, .remove ⟨0⟩]
    s₀.Unjoined ∧ (∀ op ∈ ops, op.Fits s₀) ∧
      early.1.lookupRoom ⟨7⟩ = some ⟨1⟩ ∧ late.1.lookupRoom ⟨7⟩ = some ⟨0⟩ ∧
      SameView early late := by
  intro s₀ ops b s early late
  have hs : s₀.Unjoined := Roster.unjoined_of_forall (by decide)
  have hops : ∀ op ∈ ops, op.Fits s₀ := by
    simp [ops, s₀, Op.Fits, Roster.channel?, UserId.isUnassigned]
  obtain ⟨hcommute, -⟩ := operations_commute hs 0 ⟨1, 8, 8, 1, 1⟩ ops hops
  exact ⟨hs, hops, by decide +kernel, by decide +kernel,
    ((hcommute ⟨0⟩ ⟨1⟩ (by decide)).2 ⟨9⟩ ⟨7⟩).2⟩

end Bucket

end ChatRelay
