import Switchyard.Settings.Basic
import Switchyard.Yaml.Data

/-!
# Settings as they are written

Settings are written as a YAML document whose root is a mapping; an empty document has no entries.
-/

namespace Switchyard

def Yaml.entries (text : List Char) : Except Raised Entries :=
  match Yaml.Node.read? text with
  | .error problem => .error problem.raised
  | .ok none => .ok []
  | .ok (some root) => match Yaml.data root with
    | .error flaw => .error flaw.problem.raised
    | .ok .null => .ok []
    | .ok (.map entries) => .ok entries
    | .ok v =>
      .error (.fault (.ofProblems "Configuration root must be a mapping"
        ["got " ++ v.typeName .empty]))

def Settings.read (text : String) : Except Raised Settings := do
  let entries ← Yaml.entries text.toList
  (Settings.check (.map entries)).raise

end Switchyard
