import RowSweep.Binary64.Basic

/-!
This module contains sums of many values. The order in which they are added up is a matter of the library that
does it.
-/

namespace RowSweep

abbrev Summation := List Binary64 → Binary64

namespace Summation

def inOrder : Summation :=
  List.foldl (· + ·) .zero

/--
Eight running sums, one for every eighth value. They are added up pair by pair before the values that are
left over.
-/
def addLanes (a b c d e f g h : Binary64) : Summation
  | p :: q :: r :: s :: t :: u :: v :: w :: rest =>
    addLanes (a + p) (b + q) (c + r) (d + s) (e + t) (f + u) (g + v) (h + w) rest
  | rest => rest.foldl (· + ·) (((a + b) + (c + d)) + ((e + f) + (g + h)))

def ofBlock : Summation
  | a :: b :: c :: d :: e :: f :: g :: h :: rest => addLanes a b c d e f g h rest
  | terms => inOrder terms

def blockSize : Nat :=
  128

def pairwise (terms : List Binary64) : Binary64 :=
  if terms.length ≤ blockSize then ofBlock terms
  else
    let half := terms.length / 2
    let cut := half - half % 8
    pairwise (terms.take cut) + pairwise (terms.drop cut)
termination_by terms.length
decreasing_by all_goals simp_all [blockSize]; omega

end Summation

end RowSweep
