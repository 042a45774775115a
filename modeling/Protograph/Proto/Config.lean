import Protograph.Proto.Options
import Protograph.Toml.Statement

/-! # Options from a configuration

    Five keys of a configuration set the five options; a key that is absent
    leaves its option open, one that is no string is refused, and other keys
    and tables mean nothing here. -/

namespace Protograph

/-- The string of a key; a key that is there has to be one. -/
def Toml.Table.string? (t : Toml.Table) (key : String) : Except Unit (Option String) :=
  match t.lookup key with
  | none => .ok none
  | some (.string text) => .ok (some text)
  | some _ => .error ()

/-- The options that a table sets. -/
def Overrides.ofTable (t : Toml.Table) : Except Unit Overrides := do
  return {
    package := ← t.string? "package"
    javaPackage := ← t.string? "java_package"
    jsNamespace := ← t.string? "js_namespace"
    jspbImport := ← t.string? "jspb_import"
    messageIdPrefix := ← t.string? "message_id_prefix" }

/-- The options that a configuration sets. -/
def Overrides.ofToml (text : String) : Except Unit Overrides :=
  match Toml.Table.ofString text with
  | some t => ofTable t
  | none => .error ()

/-- The options of a configuration, the defaults where it sets none. -/
def Options.ofToml (text : String) : Except Unit Options := do
  return (← Overrides.ofToml text).apply {}

end Protograph
