import QueryBuilder.Schema.Basic

/-! Frozen schemas and references into them.

A schema that queries are built on no longer changes. Freezing gives it a stamp, and
two frozen schemas count as the same one when their stamps agree, whatever they
list. A reference is a relation together with the frozen schema it belongs to; its
id is in range by type, so that looking it up cannot fail. -/
namespace QueryBuilder

structure FrozenSchema where
  stamp : Nat
  schema : Schema

/-- A relation of a frozen schema. -/
structure RelationRef where
  home : FrozenSchema
  id : Fin home.schema.relations.length

namespace RelationRef

def relation (r : RelationRef) : Relation := r.home.schema.relations[r.id]

def name (r : RelationRef) : String := r.relation.name

/-- The same relation of the same frozen schema. -/
def same (r s : RelationRef) : Bool := r.home.stamp = s.home.stamp && r.id.val = s.id.val

end RelationRef

namespace FrozenSchema

/-- A reference to the relation with this id. -/
def reference (f : FrozenSchema) (id : Nat) : Except Error RelationRef :=
  if h : id < f.schema.relations.length then .ok ⟨f, id, h⟩
  else .error (.unknownRelation (Schema.idText id))

end FrozenSchema

namespace RelationRef

def association (r : RelationRef) (name : String) : Except Error Association :=
  r.relation.association name

theorem association_eq_ok_iff {r : RelationRef} {name : String} {a : Association} :
    r.association name = .ok a ↔ r.relation.associations[name]? = some a := by
  rw [association, Relation.association]
  cases r.relation.associations[name]? <;> simp

theorem association_eq_error_iff {r : RelationRef} {name : String} {e : Error} :
    r.association name = .error e ↔
      r.relation.associations[name]? = none ∧ e = .unknownAssociation r.name name := by
  rw [association, Relation.association, RelationRef.name]
  cases r.relation.associations[name]? <;> simp [eq_comm]

/-- Another relation of the same schema. -/
def sibling (r : RelationRef) (id : Nat) : Except Error RelationRef := r.home.reference id

/-- The first association, by name, that leads to `target`. -/
def associationTo (r target : RelationRef) : Option Association :=
  if r.home.stamp = target.home.stamp then
    (r.relation.associations.toList.find? fun (_, a) => a.target = target.id.val).map (·.2)
  else none

end RelationRef

end QueryBuilder
