import ModuleLang.Proofs.Typing.Rules

/-!
Hosts that were resolved. Every type that such a host offers was read from a text, so
its printed form is read as the type again. Only functions without a result are of
another type, and this is `void`.
-/

namespace ModuleLang

/-- The host was resolved from a description. -/
def Host.Described (host : Host) : Prop :=
  ∃ descriptions : HostDescriptions, descriptions.resolve = .ok host

theorem Host.described_empty : Host.empty.Described := ⟨.empty, rfl⟩

section Successes

variable {failure item value image : Type}

theorem except_of_bind {first : Except failure value} {next : value → Except failure image}
    {result : image} (found : first >>= next = .ok result) :
    ∃ middle, first = .ok middle ∧ next middle = .ok result := by
  cases first with
  | error failed => cases found
  | ok middle => exact ⟨middle, rfl, found⟩

/-- What is found for a list is found for its members. -/
theorem except_of_mapM {find : item → Except failure value} {items : List item}
    {results : List value} (found : items.mapM find = .ok results) :
    ∀ result ∈ results, ∃ item ∈ items, find item = .ok result := by
  induction items generalizing results with
  | nil =>
      cases found
      exact List.forall_mem_nil _
  | cons item items ih =>
      rw [List.mapM_cons] at found
      rcases except_of_bind found with ⟨head, first, found⟩
      rcases except_of_bind found with ⟨tail, rest, found⟩
      cases found
      intro result member
      rcases List.mem_cons.mp member with rfl | member
      · exact ⟨item, List.mem_cons_self, first⟩
      · rcases ih rest result member with ⟨other, inside, same⟩
        exact ⟨other, List.mem_cons_of_mem _ inside, same⟩

end Successes

theorem reads_back_of_resolve {host : Host} {text : String} {type : Ty}
    (found : TypeName.resolve? host.types text = some type) : host.ReadsBack type := by
  rcases Option.bind_eq_some_iff.mp found with ⟨⟨reversed, ranks⟩, -, named⟩
  dsimp only at named
  generalize String.ofList reversed.reverse = name at named
  suffices host.written? name ranks = some type from Host.reads_back_of_written this
  unfold Host.written? Host.type?
  cases builtin : Ty.builtin? name with
  | some base =>
      rw [builtin] at named
      exact named
  | none =>
      rw [builtin] at named
      simp only at named
      split at named
      · rename_i offered
        rw [if_pos offered]
        exact named
      · cases named

namespace HostDescriptions

variable {descriptions : HostDescriptions} {host : Host}

theorem reads_back_of_resolve_type (types : host.types = descriptions.types) {owner name : String}
    {type : Ty} (found : descriptions.resolveType owner name = .ok type) : host.ReadsBack type := by
  unfold resolveType at found
  split at found
  · rename_i resolved
    cases found
    rw [← types] at resolved
    exact reads_back_of_resolve resolved
  · cases found

/-- What the parts of a description are resolved to. -/
theorem resolve_parts (resolved : descriptions.resolve = .ok host) :
    host.types = descriptions.types ∧
      (∀ signature ∈ host.functions, ∃ function,
        descriptions.resolveFunction function = .ok signature) ∧
      ∀ entry ∈ host.members, ∃ member, descriptions.resolveMember member = .ok entry := by
  rcases except_of_bind resolved with ⟨signatures, functions, resolved⟩
  rcases except_of_bind resolved with ⟨entries, members, resolved⟩
  cases resolved
  refine ⟨rfl, fun signature inside => ?_, fun entry inside => ?_⟩
  · rcases except_of_mapM functions signature inside with ⟨function, -, same⟩
    exact ⟨function, same⟩
  · rcases except_of_mapM members entry (List.mem_reverse.mp inside) with ⟨member, -, same⟩
    exact ⟨member, same⟩

end HostDescriptions

namespace Host.Described

variable {host : Host}

/-- The functions of a resolved host have results. -/
theorem function (described : host.Described) {signature : Signature}
    (offered : signature ∈ host.functions) :
    ∃ type, signature.result = some type ∧ (type = .void ∨ host.ReadsBack type) := by
  rcases described with ⟨descriptions, resolved⟩
  rcases HostDescriptions.resolve_parts resolved with ⟨types, functions, -⟩
  rcases functions signature offered with ⟨function, found⟩
  rcases except_of_bind found with ⟨parameters, -, found⟩
  split at found
  · cases found
    exact ⟨.void, rfl, Or.inl rfl⟩
  · rcases except_of_bind found with ⟨type, read, found⟩
    cases found
    exact ⟨type, rfl, Or.inr (HostDescriptions.reads_back_of_resolve_type types read)⟩

/-- The members of a resolved host have types that are read back. -/
theorem member (described : host.Described) {owner type : Ty} {name : String}
    (offered : host.member? owner name = some type) : host.ReadsBack type := by
  rcases described with ⟨descriptions, resolved⟩
  rcases HostDescriptions.resolve_parts resolved with ⟨types, -, members⟩
  rcases List.lookup_eq_some_iff.mp offered with ⟨before, after, same, -⟩
  rcases members ((owner, name), type) (by rw [same]; simp) with ⟨member, found⟩
  rcases except_of_bind found with ⟨ownerType, -, found⟩
  rcases except_of_bind found with ⟨memberType, read, found⟩
  cases found
  exact HostDescriptions.reads_back_of_resolve_type types read

end Host.Described

end ModuleLang
