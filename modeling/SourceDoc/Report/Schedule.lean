/-!
# Running many tasks

Tasks run one after the other or by several workers.  Workers finish in an order of their own, a
schedule; results are given in the order of the tasks, or in the order of the schedule.
-/

namespace SourceDoc

/-- An order in which a number of tasks finish. -/
structure Schedule (count : Nat) where
  /-- The indices of the tasks, the first to finish first. -/
  order : List Nat
  /-- Each task finishes once. -/
  perm : order.Perm (List.range count)

/-- The results of running a task for each item.  With more than one worker and more than one item,
and unless their order is to be kept, they come in the order of the schedule. -/
def runAll {α β : Type} (task : α → β) (items : List α) (workers : Int) (preserveOrder : Bool)
    (schedule : Schedule items.length) : List β :=
  let results := items.map task
  if workers ≤ 1 || items.length ≤ 1 || preserveOrder then results
  else schedule.order.filterMap (results[·]?)

end SourceDoc
