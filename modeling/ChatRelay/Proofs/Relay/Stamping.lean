import ChatRelay.Proofs.Relay.Outcome
import ChatRelay.Proofs.SequenceId.Issuing
import Mathlib.Data.List.Induction

/-!
# Stamped messages

A message that has no id when it is pushed takes the next one of the generator. A message that has
an id keeps it and leaves the generator alone, and so does a push to a user who is not registered.
A run of a server is therefore a run of its generator on a clock that shows what the pushes find
(`issueTimes?_after`), and what a message is given is later than all ids given before in the run
(`succeeds_issue`).
-/

namespace ChatRelay.Server

open SequenceId (Generator InEra)

variable {s : Server} {m : Move}

/-! ## One message -/

/-- The sequence id of what is delivered: a fresh one if the message has none. -/
def seqFor (s : Server) (now : Nat) (msg : Msg) : SequenceId :=
  if msg.seq.isUnassigned then (s.generator.issue now).1 else msg.seq

theorem stamp_fst (s : Server) (now : Nat) (msg : Msg) :
    (s.stamp now msg).1 = { msg with seq := s.seqFor now msg } := by
  unfold stamp seqFor
  split <;> rfl

theorem stamp_generator (s : Server) (now : Nat) (msg : Msg) : (s.stamp now msg).2.generator =
    if msg.seq.isUnassigned then (s.generator.issue now).2 else s.generator := by
  unfold stamp
  split <;> rfl

/-! ## One move -/

/-- The clock reading and the message of a push that is carried out. -/
def pushed? (s : Server) : Move → Option (Nat × Msg)
  | .call (.pushUser now user msg) => (s.lookupUser user).map fun _ => (now, msg)
  | .call (.pushRoom now _ msg) | .call (.pushRoomCount now _ msg)
  | .call (.pushRoomInfo now _ msg) => some (now, msg)
  | .call _ | .work _ => none

/-- The clock reading of a move that takes a fresh id. -/
def stampTime? (s : Server) (m : Move) : Option Nat :=
  (s.pushed? m).bind fun (now, msg) => if msg.seq.isUnassigned then some now else none

/-- Only a move that takes a fresh id changes the generator. -/
theorem Outcome.generator {a : Answer} {s' : Server} (ho : s.Outcome m a s') :
    s'.generator = (s.stampTime? m).elim s.generator fun now => (s.generator.issue now).2 := by
  cases ho with
  | @stray k hk => cases k <;> first | rfl | cases hk
  | @refused k _ _ hk => cases k <;> first | rfl | cases hk
  | @admitted k _ _ _ _ _ _ _ hk ha =>
    rw [ha.rest]
    cases k <;> first | rfl | cases hk
  | left hd =>
    rw [hd.rest]
    rfl
  | missed hu => simp only [stampTime?, pushed?, hu, Option.map_none, Option.bind_none, Option.elim]
  | offered hu =>
    refine (stamp_generator ..).trans ?_
    simp only [stampTime?, pushed?, hu, Option.map_some, Option.bind_some]
    split <;> rfl
  | @queued k _ _ _ hp =>
    refine (stamp_generator ..).trans ?_
    cases k <;> cases hp <;> (simp only [stampTime?, pushed?, Option.bind_some]; split <;> rfl)
  | taken hk => obtain rfl | rfl := hk <;> rfl
  | opened | leftBefore | leftUnjoined | closed | worked => rfl

/-! ## A run -/

/-- The ids that messages are given in a run, in order. -/
def issued (s : Server) : List Move → List SequenceId
  | [] => []
  | m :: ms =>
    (s.stampTime? m).toList.map (fun now => (s.generator.issue now).1) ++ (s.step m).2.issued ms

/-- What the clock shows in a run to those who take an id. -/
def readings (s : Server) : List Move → List Nat
  | [] => []
  | m :: ms => (s.stampTime? m).toList.flatMap s.generator.shown ++ (s.step m).2.readings ms

theorem issued_concat (s : Server) (ms : List Move) (m : Move) :
    s.issued (ms ++ [m]) = s.issued ms ++
      ((s.after ms).stampTime? m).toList.map fun now => ((s.after ms).generator.issue now).1 := by
  induction ms generalizing s with
  | nil => exact List.append_nil _
  | cons m' ms ih =>
    rw [List.cons_append, issued, issued, ih, List.append_assoc]
    rfl

theorem readings_concat (s : Server) (ms : List Move) (m : Move) :
    s.readings (ms ++ [m]) = s.readings ms ++
      ((s.after ms).stampTime? m).toList.flatMap (s.after ms).generator.shown := by
  induction ms generalizing s with
  | nil => exact List.append_nil _
  | cons m' ms ih =>
    rw [List.cons_append, readings, readings, ih, List.append_assoc]
    rfl

/-- The ids of a run are those of as many calls of the generator, one after another. -/
theorem issueTimes?_after (hs : s.hub.Sound) (ms : List Move) :
    s.generator.issueTimes? (s.readings ms) (s.issued ms).length =
      some (s.issued ms, (s.after ms).generator, []) := by
  induction ms using List.reverseRecOn with
  | nil => rfl
  | append_singleton ms m ih =>
    have hgenerator := (step_outcome (sound_after hs ms) m).generator
    rw [issued_concat, readings_concat, after_concat, hgenerator]
    cases (s.after ms).stampTime? m with
    | none => simpa using ih
    | some now =>
      have hcall := Generator.issueOn?_eq_issue (s.after ms).generator now
      simp [Generator.issueTimes?, Generator.issueTimes?_append ih, hcall]

/-- In a run of a server with a new generator, an id that is taken is later than all before. -/
theorem succeeds_issue (hs : s.hub.Sound) {w : Nat} (hg : Generator.new? w = some s.generator)
    (ms : List Move) {now : Nat} (hm : (s.after ms).stampTime? m = some now)
    (hclock : ∀ r ∈ s.readings (ms ++ [m]), InEra r) :
    Generator.Succeeds w (s.issued ms) ((s.after ms).generator.issue now).1 := by
  have hrun := Generator.issueTimes?_append (issueTimes?_after hs ms)
    ((s.after ms).generator.shown now)
  have hreadings : s.readings (ms ++ [m]) =
      s.readings ms ++ (s.after ms).generator.shown now := by
    rw [readings_concat, hm, Option.toList_some, List.flatMap_singleton]
  rw [hreadings] at hclock
  obtain ⟨-, -, hsucceeds, -⟩ :=
    Generator.succeeds_of_issueOn? hg hrun hclock (Generator.issueOn?_eq_issue _ _)
  exact hsucceeds

end ChatRelay.Server
