import SmacPlanner.Node2D

namespace SmacPlanner

/-- A call the search makes on a pooled node between two resets, in any order:
`setAccumulatedCost(cost_in)`, `visited()` or `queued()`. -/
inductive NodeUpdate
  | setAccumulatedCost (costIn : ℝ)
  | visited
  | queued

namespace NodeUpdate

/-- The cost the call assigns, when it is `setAccumulatedCost`. -/
def assigned : NodeUpdate → Option ℝ
  | setAccumulatedCost costIn => some costIn
  | _ => none

def isVisited : NodeUpdate → Bool
  | visited => true
  | _ => false

def isQueued : NodeUpdate → Bool
  | queued => true
  | _ => false

end NodeUpdate

namespace Node2D

def update (node : Node2D) : NodeUpdate → Node2D
  | .setAccumulatedCost costIn => node.setAccumulatedCost costIn
  | .visited => node.visited
  | .queued => node.queued

/-- The node `reset(cost, index)` leaves, after `updates` in order. -/
def afterReset (cost index : ℕ) (updates : List NodeUpdate) : Node2D :=
  updates.foldl update (reset cost index)

theorem afterReset_append (cost index : ℕ) (updates : List NodeUpdate) (u : NodeUpdate) :
    afterReset cost index (updates ++ [u]) = (afterReset cost index updates).update u := by
  rw [afterReset, List.foldl_append, List.foldl_cons, List.foldl_nil]
  rfl

/-- For every history of calls since a reset, the node keeps the cell cost and index of the
reset and no parent, holds the cost of the last `setAccumulatedCost` (the float maximum if
there was none), counts as visited exactly when `visited()` was called, and as queued exactly
when `queued()` was called since the last `visited()`. -/
theorem afterReset_eq (cost index : ℕ) (updates : List NodeUpdate) :
    afterReset cost index updates =
      { parent := none
        cellCost := cost
        accumulatedCost := ((updates.filterMap NodeUpdate.assigned).getLast?).getD floatMax
        index := index
        wasVisited := updates.any NodeUpdate.isVisited
        isQueued :=
          (updates.reverse.takeWhile fun u => !u.isVisited).any NodeUpdate.isQueued } := by
  induction updates using List.reverseRecOn with
  | nil => rfl
  | append_singleton updates u ih =>
    rw [afterReset_append, ih]
    cases u <;> simp [update, setAccumulatedCost, visited, queued, NodeUpdate.assigned,
      NodeUpdate.isVisited, NodeUpdate.isQueued]

end Node2D

end SmacPlanner
