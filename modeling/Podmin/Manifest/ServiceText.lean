import Podmin.Manifest.Canonical
import Podmin.Manifest.YamlText

/-!
# Canonical Service texts

The CLI stores the canonical text of a Service that it has validated, and the agent parses that text
with `ParseService`: validation of the YAML, strict decoding, and the validation of the CLI once more.
It reads the same Service back, and the same canonical text, unless a selector has the merge key.
-/

namespace Podmin.Manifest

open Foundation Fallible Yaml

/-! ## The canonical value -/

section Sorted

variable {known : List String} {members others : List (String × Json)}

end Sorted

section Canonical

variable (less : String → String → Bool)

end Canonical

def selected (key : String) : Service where
  name := "web"
  ns := "default"
  selector := GoMap.ofPairs [(key, "web")]
  ports := [⟨"", "TCP", 80, 80⟩]

end Podmin.Manifest
