import RowSweep.Json.Reader
import RowSweep.Libraries
import RowSweep.Yaml.Reader

/-!
This module contains the libraries that the program runs with.
-/

namespace RowSweep

def Libraries.standard : Libraries where
  numerics := .standard
  json := ⟨Json.read, fun _ => "it is no JSON text"⟩
  yaml := ⟨Yaml.read, fun _ => "it is no YAML text"⟩
  complaint := fun _ => "it holds lists of different lengths or something that is no number"

end RowSweep
