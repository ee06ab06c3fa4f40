import ActorAudit.Settings.Codec
import ActorAudit.Toml.Reader

/-!
# Configuration files

Settings are read from TOML. A document that does not fit is refused as a whole.
-/

namespace ActorAudit.Settings

def parse? (text : String) : Option Settings :=
  match decode (Toml.read text) with
  | .ok s => some s
  | .error _ => none

end ActorAudit.Settings
