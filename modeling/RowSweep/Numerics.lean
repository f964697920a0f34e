import RowSweep.Condition
import RowSweep.Summation

/-!
This module contains what the solver leaves to numeric libraries: the order in which products and magnitudes
are added up, and the factorization that the condition of a system is estimated with.
-/

namespace RowSweep

structure Numerics where
  products : Summation
  magnitudes : Summation
  factorization : Factorization

namespace Numerics

def estimator (numerics : Numerics) : Estimator :=
  Condition.pivotRatio numerics.factorization

def standard : Numerics :=
  ⟨.inOrder, .pairwise, .partialPivoting⟩

end Numerics

end RowSweep
