import ModuleLang.Host
import ModuleLang.Json

/-!
Records of host descriptions and their readers. Lists that a record leaves out
are empty.
-/

namespace ModuleLang

namespace HostFunction

def record (function : HostFunction) : Json :=
  .record
    [("name", .string function.name), ("params", .array (function.parameters.map Json.string)),
      ("returns", .ofOption (function.result.map Json.string))]

def ofRecord? (value : Json) : Option HostFunction := do
  return ⟨← value.field? Json.string? "name", ← value.listField? Json.string? "params",
    ← value.optionalField? Json.string? "returns"⟩

end HostFunction

namespace HostMember

def record (member : HostMember) : Json :=
  .record
    [("owner", .string member.owner), ("name", .string member.name), ("type", .string member.type)]

def ofRecord? (value : Json) : Option HostMember := do
  return ⟨← value.field? Json.string? "owner", ← value.field? Json.string? "name",
    ← value.field? Json.string? "type"⟩

end HostMember

namespace HostDescriptions

def record (descriptions : HostDescriptions) : Json :=
  .record
    [("types", .array (descriptions.types.map Json.string)),
      ("functions", .array (descriptions.functions.map HostFunction.record)),
      ("members", .array (descriptions.members.map HostMember.record))]

def ofRecord? (value : Json) : Option HostDescriptions := do
  return ⟨← value.listField? Json.string? "types",
    ← value.listField? HostFunction.ofRecord? "functions",
    ← value.listField? HostMember.ofRecord? "members"⟩

end HostDescriptions

end ModuleLang
