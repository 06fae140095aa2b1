import ChatRelay.Message.Basic

/-!
# Mailboxes

Every connection has a bounded mailbox: messages are offered at one end without waiting, and the
connection's writer takes them out at the other. A message offered to a full mailbox, or to one
whose writer is gone, is lost.
-/

namespace ChatRelay

/-- What became of a message that was offered. -/
inductive Delivery where
  | accepted
  | dropped
  deriving DecidableEq, Repr

/-- The messages that wait for a connection's writer, oldest first. -/
structure Mailbox where
  capacity : Nat
  waiting : List Msg
  /-- The writer is still there. -/
  isOpen : Bool
  length_le : waiting.length ≤ capacity
  deriving DecidableEq, Repr

namespace Mailbox

/-- An empty mailbox for `bound` messages, and for one message if the bound is 0. -/
def new (bound : Nat) : Mailbox :=
  ⟨max bound 1, [], true, Nat.zero_le _⟩

/-- Offer a message without waiting. -/
def offer (m : Mailbox) (msg : Msg) : Delivery × Mailbox :=
  if h : m.isOpen ∧ m.waiting.length < m.capacity then
    (.accepted, { m with
      waiting := m.waiting ++ [msg]
      length_le := by rw [List.length_append]; exact h.2 })
  else (.dropped, m)

/-- Take the oldest `n` messages out. -/
def take (m : Mailbox) (n : Nat) : List Msg × Mailbox :=
  (m.waiting.take n, { m with
    waiting := m.waiting.drop n
    length_le := by rw [List.length_drop]; exact Nat.le_trans (Nat.sub_le _ _) m.length_le })

/-- Take all messages out. -/
def drain (m : Mailbox) : List Msg × Mailbox :=
  m.take m.waiting.length

/-- The writer goes away, and with it what it has not taken. -/
def close (m : Mailbox) : Mailbox :=
  { m with waiting := [], isOpen := false, length_le := Nat.zero_le _ }

/-! ## What an offer does to the waiting messages -/

theorem waiting_offer (m : Mailbox) (msg : Msg) :
    (m.offer msg).2.waiting =
      m.waiting ++ if (m.offer msg).1 = .accepted then [msg] else [] := by
  unfold offer
  split <;> simp

theorem offer_fst_eq_accepted {m : Mailbox} {msg : Msg} :
    (m.offer msg).1 = .accepted ↔ m.isOpen ∧ m.waiting.length < m.capacity := by
  unfold offer
  split
  next h => simp [h]
  next h => simp [h]

@[simp] theorem drain_fst (m : Mailbox) : m.drain.1 = m.waiting :=
  List.take_length

@[simp] theorem waiting_drain (m : Mailbox) : m.drain.2.waiting = [] :=
  List.drop_length

end Mailbox

end ChatRelay
