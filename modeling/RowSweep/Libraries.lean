import RowSweep.Document
import RowSweep.Numerics

/-!
This module contains all that the program leaves to libraries. What they say about an input that they turn down
becomes part of a message, so it is left open like the rest.
-/

namespace RowSweep

structure Libraries where
  numerics : Numerics
  json : Reader
  yaml : Reader
  complaint : Document → String

end RowSweep
