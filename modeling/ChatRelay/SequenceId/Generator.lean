import ChatRelay.SequenceId.Basic

/-!
# Issuing sequence ids

A generator issues the ids of one worker. It remembers the last slot, a millisecond and a counter,
and reads a clock that may stall or step back: a later millisecond starts a new count, any other
reading continues the last millisecond. When the counter of that millisecond is used up, nothing
is issued until the clock has passed it.
-/

namespace ChatRelay.SequenceId

/-- The issuer of one worker's ids. -/
structure Generator where
  worker : Nat
  worker_le : worker ≤ maxWorker
  lastMillis : Nat
  lastCounter : Nat
  deriving DecidableEq, Repr

namespace Generator

/-- A generator that has issued nothing; a worker beyond ten bits has none. -/
def new? (worker : Nat) : Option Generator :=
  if h : worker ≤ maxWorker then some ⟨worker, h, 0, 0⟩ else none

/-- What is said about a worker beyond ten bits. -/
def workerMessage : String := "worker id must be at most 1023"

/-- The slot that a clock reading leads to, if there is one. -/
def slot? (g : Generator) (now : Nat) : Option (Nat × Nat) :=
  if g.lastMillis < now then some (now, 0)
  else if g.lastCounter < maxCounter then some (g.lastMillis, g.lastCounter + 1)
  else none

/-- Issue an id on a clock reading, unless the clock has to be waited for. -/
def issue? (g : Generator) (now : Nat) : Option (SequenceId × Generator) :=
  (g.slot? now).map fun s =>
    (ofFields s.1 g.worker s.2, { g with lastMillis := s.1, lastCounter := s.2 })

/-- Issue an id on successive clock readings; the rest of them is returned. -/
def issueOn? (g : Generator) : List Nat → Option (SequenceId × Generator × List Nat)
  | [] => none
  | now :: later =>
    match g.issue? now with
    | some (id, g') => some (id, g', later)
    | none => g.issueOn? later

/-- Issue an id on a clock that reads `now` and then moves on: if nothing can be issued at once,
the id is taken in the first millisecond after the exhausted one. -/
def issue (g : Generator) (now : Nat) : SequenceId × Generator :=
  let s := (g.slot? now).getD (g.lastMillis + 1, 0)
  (ofFields s.1 g.worker s.2, { g with lastMillis := s.1, lastCounter := s.2 })

/-- Issue `n` ids on a clock that stands still until it is waited for, last one first. -/
def issueMany (g : Generator) (now : Nat) : Nat → List SequenceId × Generator
  | 0 => ([], g)
  | n + 1 =>
    let (ids, g) := g.issueMany now n
    let (id, g) := g.issue now
    (id :: ids, g)

def describe (g : Generator) : String :=
  "SnowflakeGenerator \x7b worker_id: " ++ toString g.worker ++ " \x7d"

end Generator

end ChatRelay.SequenceId
