import Mathlib.Data.List.Induction

/-!
# Histories

A system that answers each move is known from the outside by its history: the moves with their
answers. `History.reached` is the state after a list of moves and `History.answered` their history.
What holds before the first move, and of state and history after one more move if it did before,
holds after every list of moves (`History.induct`).
-/

namespace ChatRelay.History

variable {σ μ α : Type} (step : σ → μ → α × σ)

/-- The state after a list of moves. -/
def reached (s : σ) (moves : List μ) : σ :=
  moves.foldl (fun s m => (step s m).2) s

/-- The moves with their answers. -/
def answered (s : σ) : List μ → List (μ × α)
  | [] => []
  | m :: moves => (m, (step s m).1) :: answered (step s m).2 moves

theorem reached_append (s : σ) (moves moves' : List μ) :
    reached step s (moves ++ moves') = reached step (reached step s moves) moves' :=
  List.foldl_append

theorem answered_append (s : σ) (moves moves' : List μ) :
    answered step s (moves ++ moves') =
      answered step s moves ++ answered step (reached step s moves) moves' := by
  induction moves generalizing s with
  | nil => rfl
  | cons m moves ih =>
    rw [List.cons_append, answered, answered, ih, List.cons_append]
    rfl

/-- What every move keeps holds after every list of moves. -/
theorem induct (s : σ) {P : List (μ × α) → σ → Prop} (moves : List μ) (start : P [] s)
    (keep : ∀ history s' m, m ∈ moves → P history s' →
      P (history ++ [(m, (step s' m).1)]) (step s' m).2) :
    P (answered step s moves) (reached step s moves) := by
  induction moves using List.reverseRecOn with
  | nil => exact start
  | append_singleton moves m ih =>
    rw [answered_append, reached_append]
    refine keep _ _ m (List.mem_append_right _ (List.mem_singleton_self m)) (ih ?_)
    intro history s' m' hm
    exact keep history s' m' (List.mem_append_left _ hm)

end ChatRelay.History
