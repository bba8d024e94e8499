import DocumentStore.Proofs.Service.Creation
import DocumentStore.Proofs.Service.Requests

/-! What is true of each item of a container, and stays so.

A creation keeps a property of the items of a container if what it files has the property, and an update
does if what becomes of an item that has it does (`moves_create_each`, `moves_update_each`). Of other
containers nothing has to be known. -/
namespace DocumentStore
open DocumentStore.Action

variable {m : Memory} {registry : Registry} {hashing : HashOrder} {container other : String} {schema : Schema}
  {P : ItemKey → Item → Prop} {s s' : Store}

namespace Store

/-- Every item of the container has the property, under its key. -/
def Each (container : String) (P : ItemKey → Item → Prop) (s : Store) : Prop :=
  ∀ key item, s.find? container key = some item → P key item

/-- If every item of the container had the property, every one has it still. -/
def KeepsEach (container : String) (P : ItemKey → Item → Prop) (s s' : Store) : Prop :=
  s.Each container P → s'.Each container P

instance : IsPreorder Store (KeepsEach container P) where
  refl _ h := h
  trans _ _ _ h h' hs := h' (h hs)

theorem each_empty : Each container P {} := fun _ _ h => nomatch h

theorem Each.put {key : ItemKey} {item : Item} (h : s.Each container P)
    (hitem : other = container → P key item) : (s.put other key item).Each container P := by
  intro key' item' hfound
  rw [find?_put] at hfound
  split at hfound
  · next hsame =>
    cases hfound
    obtain ⟨hcontainer, rfl⟩ := hsame
    exact hitem hcontainer.symm
  · exact h key' item' hfound

end Store

namespace Service

theorem schema_unique {op : Operation} {schema' : Schema}
    (hget : registry.schemas.get? container = some schema)
    (h : (⟨m.backend, registry, hashing⟩ : Service).schema container op = .ok schema') : schema' = schema :=
  Option.some.inj ((Registry.resolve_eq_ok_iff.1 h).symm.trans hget)

theorem moves_file_each {prepared : List (String × Item)}
    (h : other = container → ∀ p ∈ prepared, ∀ key n, fileKey? p = some key →
      P key (p.2.stamped (m.stamp n) container)) :
    Moves (Store.KeepsEach container P) ((⟨m.backend, registry, hashing⟩ : Service).file other prepared) := by
  refine moves_mapM fun p hp => moves_ofChange fun s s' item hcreate hs => ?_
  obtain ⟨key, hkey, -, rfl, rfl⟩ := Store.create_eq_ok_iff.1 hcreate
  refine hs.put fun hother => ?_
  subst hother
  exact h rfl p hp key s.writes hkey

theorem moves_create_each (hget : registry.schemas.get? container = some schema) {items : List Item}
    (h : other = container → ∀ item ∈ items, ∀ p key n, schema.prepare item = .ok p →
      fileKey? p = some key → P key (p.2.stamped (m.stamp n) container)) :
    Moves (Store.KeepsEach container P)
      ((⟨m.backend, registry, hashing⟩ : Service).create other items) := by
  refine moves_liftM_bind fun _ _ => moves_liftM_bind fun schema' hschema =>
    moves_liftM_bind fun prepared hprepared => moves_bind (moves_file_each ?_) fun _ => moves_pure _
  intro hother p hp key n hkey
  subst hother
  obtain rfl := schema_unique hget hschema
  obtain ⟨item, hitem, hprepare⟩ := exists_of_mem_forall₂ (Result.mapM_eq_ok_iff.1 hprepared).flip hp
  exact h rfl item hitem p key n hprepare hkey

theorem moves_revise_each {id partition : String} {revision : Item → Item}
    (h : other = container → ∀ old s, P ⟨partition, id⟩ old →
      P ⟨partition, id⟩ (refiled m s container id (revision old))) :
    Moves (Store.KeepsEach container P)
      ((⟨m.backend, registry, hashing⟩ : Service).revise other id partition revision) := by
  intro s hs
  rw [outcome_revise]
  cases hfound : s.find? other ⟨partition, id⟩ with
  | none => exact hs
  | some old =>
    refine hs.put fun hother => ?_
    subst hother
    exact h rfl old s (hs _ old hfound)

theorem moves_update_each (hget : registry.schemas.get? container = some schema) {id partition : String}
    {updates : Item} {returned : ReturnValue}
    (h : other = container → ∀ old s, P ⟨partition, id⟩ old →
      P ⟨partition, id⟩ (refiled m s container id (Item.revised schema.aliases updates old))) :
    Moves (Store.KeepsEach container P)
      ((⟨m.backend, registry, hashing⟩ : Service).update other id partition updates returned) := by
  refine moves_liftM_bind fun _ _ => moves_liftM_bind fun schema' hschema =>
    moves_bind (moves_revise_each fun hother => ?_) fun _ => moves_pure _
  subst hother
  obtain rfl := schema_unique hget hschema
  exact h rfl

end Service
end DocumentStore
