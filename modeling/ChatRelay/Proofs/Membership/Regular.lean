import ChatRelay.Proofs.History
import ChatRelay.Proofs.Membership.Orderly

/-!
# Buckets that are called in any order

Registering a channel, undoing that, beginning a teardown, and taking a channel out of a room
behind the bucket's back all keep a bucket orderly. The last one may leave a retired room
registered. Without it rooms have members, so that a bucket is `Regular` whatever it is called for.
-/

namespace ChatRelay.Bucket

variable {b b' : Bucket} {s s' s₀ : Roster} {user : UserId} {id : RoomId} {c c' : ChannelRef}
  {r : RoomRef} {channel : Channel}

/-! ## Registrations and removals -/

theorem Orderly.remove (h : b.Orderly s) (c : ChannelRef) :
    (b.remove s c).2.1.Orderly (b.remove s c).2.2 := by
  have howned := (indexes_remove h.owned c).owned
  obtain ⟨-, hremove⟩ | ⟨channel, closed, b', s', hc, -, hremove, hp⟩ := h.remove_cases c
  · rw [hremove]
    exact h
  · rw [hremove] at howned ⊢
    refine ⟨hp.located h.toLocated hc, ?_, howned⟩
    intro c' channel' link' hc' hl'
    rw [hp.channel? hc] at hc'
    split at hc'
    next =>
      rw [← Option.some.inj hc'] at hl'
      cases hl'
    next => exact h.joined c' channel' link' hc' hl'

theorem Located.peopled_remove (h : b.Located s) (hpeopled : s.Peopled) (c : ChannelRef) :
    (b.remove s c).2.2.Peopled := by
  obtain ⟨-, hremove⟩ | ⟨channel, closed, b', s', -, -, hremove, hp⟩ := h.remove_cases c
  · rw [hremove]
    exact hpeopled
  · rw [hremove]
    exact hp.peopled hpeopled

/-- A registration is refused with nothing changed, or is of a channel that has not joined and
succeeds. -/
theorem Orderly.refused_or_enrolled (h : b.Orderly s) (hc : s.channel? c = some channel)
    (user : UserId) (id : RoomId) :
    (∃ e, b.act s (.put user id c) = (some e, b, s)) ∨
      channel.isJoined = false ∧ ∃ b' s', b.put s user id c = .ok (b', s') ∧
        b.act s (.put user id c) = (none, b', s') ∧ b.Enrolled s user id c b' s' := by
  cases hj : channel.isJoined with
  | true => exact .inl ⟨_, act_put_of_joined hc hj user id⟩
  | false =>
    cases hcl : channel.isClosing with
    | true => exact .inl ⟨_, act_put_of_closing hc hj hcl user id⟩
    | false => exact .inr ⟨rfl, h.act_put_of_open hc hj hcl user id⟩

/-! ## Teardowns and departures -/

/-- The beginning of a teardown changes no index, no room and no link. -/
theorem Orderly.beginClose (h : b.Orderly s) (c : ChannelRef) :
    b.Orderly (s.beginClose c).2 := by
  have howned := h.owned.congr (fun _ => rfl) (user?_beginClose s c)
  have hclosing : ∀ ch : Channel, ({ ch with isClosing := true } : Channel).link = ch.link :=
    fun _ => rfl
  rw [Roster.beginClose_snd] at howned ⊢
  have hkept : ∀ c' channel',
      (s.modifyChannel c fun ch => { ch with isClosing := true }).channel? c' = some channel' →
      ∃ channel, s.channel? c' = some channel ∧ channel'.user = channel.user ∧
        channel'.room = channel.room ∧ channel'.link = channel.link := by
    intro c' channel' hc'
    rw [Roster.channel?_modifyChannel] at hc'
    split at hc'
    next =>
      obtain ⟨channel, hc, rfl⟩ := Option.map_eq_some_iff.mp hc'
      exact ⟨channel, hc, rfl, rfl, rfl⟩
    next => exact ⟨channel', hc', rfl, rfl, rfl⟩
  refine ⟨h.congr (Roster.link?_modifyChannel_of_link hclosing s c) (fun _ => rfl)
    (fun _ => rfl) ?_, ?_, howned⟩
  · intro c' channel' link hc' hl
    obtain ⟨channel, hc, -, hroom, hlink⟩ := hkept c' channel' hc'
    rw [hroom]
    exact h.placed c' channel link hc (hlink ▸ hl)
  · intro c' channel' link hc' hl
    obtain ⟨channel, hc, huser, -, hlink⟩ := hkept c' channel' hc'
    rw [Channel.isJoined, huser]
    exact h.joined c' channel link hc (hlink ▸ hl)

/-- A channel that leaves its room behind the bucket's back leaves it registered. -/
theorem Orderly.leave (h : b.Orderly s) (r : RoomRef) (c : ChannelRef) :
    b.Orderly (s.remove r c).2 := by
  have howned := h.owned.congr (fun _ => rfl) (s.user?_remove r c)
  by_cases hl : (s.link? c).map Link.room = some r
  · obtain ⟨⟨r', slot⟩, hlink, rfl⟩ := Option.map_eq_some_iff.mp hl
    obtain ⟨channel, hc, -⟩ := Option.bind_eq_some_iff.mp hlink
    obtain ⟨room, room', hroom, hremove, hlinked, hid, -⟩ := h.linked.remove hlink
    rw [hremove] at howned ⊢
    have hkept : ∀ c' channel' link', (s.relinked r' room' c none).channel? c' = some channel' →
        channel'.link = some link' → s.channel? c' = some channel' := by
      intro c' channel' link' hc' hl'
      rw [Roster.channel?_relinked, hc] at hc'
      split at hc'
      next =>
        rw [← Option.some.inj hc'] at hl'
        cases hl'
      next => exact hc'
    refine ⟨⟨hlinked, ?_, ?_⟩, ?_, howned⟩
    · intro id r
      rw [h.lookupRoom_iff, Roster.room?_relinked hroom]
      split
      next he => simp [he, hroom, hid]
      next => rfl
    · exact fun c' channel' link' hc' hl' =>
        h.placed c' channel' link' (hkept c' channel' link' hc' hl') hl'
    · exact fun c' channel' link' hc' hl' =>
        h.joined c' channel' link' (hkept c' channel' link' hc' hl') hl'
  · rw [Roster.remove_of_elsewhere hl]
    exact h

/-! ## A run -/

theorem Orderly.act (h : b.Orderly s) {op : Op} (hop : op.Fits s) :
    (b.act s op).2.1.Orderly (b.act s op).2.2 := by
  cases op with
  | put user id c =>
    obtain ⟨hu, channel, hc⟩ := hop
    obtain ⟨e, hact⟩ | ⟨hj, b', s', hput, hact, he⟩ := h.refused_or_enrolled hc user id
    · rw [hact]
      exact h
    · rw [hact]
      exact he.orderly h hc hj hu hput
  | remove c => exact h.remove c
  | beginClose c => exact h.beginClose c

/-- What holds of a bucket that is called in any order, from a roster where nobody has joined. -/
structure Regular (s₀ : Roster) (b : Bucket) (s : Roster) : Prop where
  orderly : b.Orderly s
  peopled : s.Peopled
  known : ∀ c, (s.user? c).isSome = (s₀.user? c).isSome

theorem regular_new (hs : s₀.Unjoined) (id : Nat) (config : BucketConfig) :
    Regular s₀ (new id config) s₀ where
  orderly := orderly_new hs id config
  peopled r room hr := by
    rw [hs.room?_eq_none] at hr
    cases hr
  known _ := rfl

theorem Regular.fits (h : Regular s₀ b s) {op : Op} (hop : op.Fits s₀) : op.Fits s :=
  hop.congr h.known

theorem Regular.act (h : Regular s₀ b s) {op : Op} (hop : op.Fits s₀) :
    Regular s₀ (b.act s op).2.1 (b.act s op).2.2 := by
  have hop' := h.fits hop
  refine ⟨h.orderly.act hop', ?_, fun c => ?_⟩
  · cases op with
    | put user id c =>
      obtain ⟨-, channel, hc⟩ := hop'
      obtain ⟨e, hact⟩ | ⟨-, b', s', -, hact, he⟩ := h.orderly.refused_or_enrolled hc user id
      · rw [hact]
        exact h.peopled
      · rw [hact]
        exact he.peopled h.peopled
    | remove c => exact h.orderly.peopled_remove h.peopled c
    | beginClose c =>
      intro r room hr
      rw [Bucket.act, Roster.beginClose_snd] at hr
      exact h.peopled r room hr
  · rw [(indexes_act h.orderly.owned hop').known, h.known]

theorem regular_after (hs : s₀.Unjoined) (id : Nat) (config : BucketConfig)
    {ops : List Op} (hops : ∀ op ∈ ops, op.Fits s₀) :
    Regular s₀ ((new id config).after s₀ ops).1 ((new id config).after s₀ ops).2 := by
  refine History.induct (fun bs op => bs.1.act bs.2 op) (new id config, s₀)
    (P := fun _ bs => Regular s₀ bs.1 bs.2) ops (regular_new hs id config) ?_
  intro _ bs op hop h
  exact h.act (hops op hop)

end ChatRelay.Bucket
