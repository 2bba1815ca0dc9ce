import Scriptorium.Proofs.Run.Cap
import Scriptorium.Proofs.Run.Course

/-! # Itineraries

What the checkpoints of a whole run tell, in order: for each component of the catalog the moves
that its verdict calls for, and the closing moves.
-/

namespace Scriptorium

namespace Run

open Archive

/-! ## What the marks tell -/

namespace Plan

variable {p : Plan} {f : Assistant.Request → Except Assistant.Failure String}

end Plan

/-! ## Whole runs -/

namespace Session

variable {σ : Type} [Store σ] {p : Plan} {f : Assistant.Request → Except Assistant.Failure String}

end Session

end Run

end Scriptorium
