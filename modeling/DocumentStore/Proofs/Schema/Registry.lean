import DocumentStore.Proofs.Result
import DocumentStore.Schema.Registry

/-! Registries file schemas under the containers that they are for. -/
namespace DocumentStore.Registry

/-- What a registry made of schemas yields for a container is a schema for it. -/
theorem container_of_get?_ofList {ss : List Schema} {name : String} {schema : Schema}
    (h : (ofList ss).schemas.get? name = some schema) : schema.container = name := by
  unfold ofList at h
  suffices ∀ r : Registry, (∀ name schema, r.schemas.get? name = some schema → schema.container = name) →
      ∀ name schema, (ss.foldl insert r).schemas.get? name = some schema → schema.container = name from
    this default nofun name schema h
  clear h
  induction ss with
  | nil => exact fun _ hr => hr
  | cons first rest ih =>
    intro r hr
    refine ih (r.insert first) fun name schema hget => ?_
    rw [insert, OrderedMap.get?_insert] at hget
    split at hget
    · next hname =>
      cases hget
      exact hname.symm
    · exact hr name schema hget

theorem resolve_eq_ok_iff {r : Registry} {container : String} {op : Operation} {schema : Schema} :
    r.resolve container op = .ok schema ↔ r.schemas.get? container = some schema := by
  unfold resolve
  cases r.schemas.get? container with
  | none => exact ⟨nofun, nofun⟩
  | some found =>
    exact ⟨fun h => congrArg some (Except.ok.inj h), fun h => congrArg Except.ok (Option.some.inj h)⟩

/-- The schemas that containers resolve to are those registered for them. -/
theorem registered_of_resolve {ss : List Schema} {containers : List String} {op : Operation}
    {schemas : List Schema}
    (h : containers.mapM (fun container => (ofList ss).resolve container op) = .ok schemas) :
    ∀ schema ∈ schemas, schema.container ∈ containers ∧
      (ofList ss).schemas.get? schema.container = some schema := by
  intro schema hschema
  obtain ⟨container, hcontainer, hresolve⟩ :=
    exists_of_mem_forall₂ (Result.mapM_eq_ok_iff.1 h).flip hschema
  have hget : (ofList ss).schemas.get? container = some schema := resolve_eq_ok_iff.1 hresolve
  obtain rfl := container_of_get?_ofList hget
  exact ⟨hcontainer, hget⟩

end DocumentStore.Registry
