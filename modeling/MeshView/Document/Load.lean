/-
# Loading settings and scenarios

Settings and scenarios are YAML texts, and files have to be in UTF-8.  Loaded settings are checked; a
scenario is only read, and whether it can be built shows later.
-/

import MeshView.Document.Scenario
import MeshView.Document.Settings
import MeshView.Yaml.Document

namespace MeshView

/-- Why a text or a file could not be loaded. -/
inductive LoadFault where
  /-- There is no such file, or it is not in UTF-8. -/
  | unreadable
  /-- The text is no YAML, or not of the expected shape. -/
  | malformed
  | invalid (fault : SettingsFault)
deriving DecidableEq

/-- The text of a file, if there is one. -/
def fileText (contents : Option ByteArray) : Except LoadFault String :=
  match contents.bind String.fromUTF8? with
  | some text => .ok text
  | none => .error .unreadable

namespace Settings

/-- The settings that a text spells, checked. -/
def ofYaml (text : String) : Except LoadFault Settings :=
  match Yaml.Node.ofText? text >>= read? Yaml.source with
  | none => .error .malformed
  | some s =>
    match s.fault? with
    | some fault => .error (.invalid fault)
    | none => .ok s

/-- The settings in a file. -/
def load (contents : Option ByteArray) : Except LoadFault Settings :=
  fileText contents >>= ofYaml

end Settings

namespace Scenario

/-- The scenario that a text spells. -/
def ofYaml (text : String) : Except LoadFault Scenario :=
  match Yaml.Node.ofText? text >>= read? Yaml.source (Yaml.content? 2) with
  | none => .error .malformed
  | some s => .ok s

/-- The scenario in a file. -/
def load (contents : Option ByteArray) : Except LoadFault Scenario :=
  fileText contents >>= ofYaml

end Scenario
end MeshView
