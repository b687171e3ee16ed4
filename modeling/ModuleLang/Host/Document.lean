import ModuleLang.Host
import ModuleLang.Toml
import ModuleLang.Toml.Reader

/-!
Host descriptions as TOML documents.
-/

namespace ModuleLang

def HostFunction.ofToml? (value : Toml) : Option HostFunction := do
  return ⟨← value.required? Toml.asString? 0 "name",
    ← value.defaulted? (Toml.asList? Toml.asString?) [] 1 "params",
    ← value.optional? Toml.asString? 2 "returns"⟩

def HostMember.ofToml? (value : Toml) : Option HostMember := do
  return ⟨← value.required? Toml.asString? 0 "owner", ← value.required? Toml.asString? 1 "name",
    ← value.required? Toml.asString? 2 "type"⟩

namespace HostDescriptions

def ofToml? (value : Toml) : Option HostDescriptions := do
  return ⟨← value.defaulted? (Toml.asList? Toml.asString?) [] 0 "types",
    ← value.defaulted? (Toml.asList? HostFunction.ofToml?) [] 1 "functions",
    ← value.defaulted? (Toml.asList? HostMember.ofToml?) [] 2 "members"⟩

def ofText? (text : String) : Option HostDescriptions := (Toml.ofText? text).bind ofToml?

end HostDescriptions

end ModuleLang
