/-!
# Kinds of associations

  A declared association has one of seven kinds. The part of its name behind
  the engine says how the two sides are tied together: its shape, and with it
  how many records stand on the other side.
-/

namespace Scaffold

/-- How two entities are tied together, whatever stores them. -/
inductive Shape where
  | belongsTo
  | hasOne
  | hasMany
  | belongsToMany
  deriving DecidableEq

namespace Shape

/-- The shapes in the order in which associations are listed. -/
def all : List Shape := [belongsTo, hasOne, hasMany, belongsToMany]

/-- The name of a shape. -/
def name : Shape → String
  | belongsTo => "belongsTo"
  | hasOne => "hasOne"
  | hasMany => "hasMany"
  | belongsToMany => "belongsToMany"

theorem mem_all (s : Shape) : s ∈ all := by cases s <;> simp [all]

theorem nodup_all : all.Nodup := by decide

end Shape

/-- How many records stand on the other side. -/
inductive Arity where
  | one
  | many
  deriving DecidableEq

/-- The name of an arity. -/
def Arity.name : Arity → String
  | one => "one"
  | many => "many"

/-- The kinds of associations that can be declared. -/
inductive Kind where
  | sqlHasMany
  | sqlBelongsToMany
  | crossHasMany
  | sqlHasOne
  | sqlBelongsTo
  | crossHasOne
  | crossBelongsTo
  deriving DecidableEq

namespace Kind

/-- Every kind. -/
def all : List Kind :=
  [sqlHasMany, sqlBelongsToMany, crossHasMany, sqlHasOne, sqlBelongsTo, crossHasOne,
    crossBelongsTo]

/-- The name by which a kind is declared. -/
def name : Kind → String
  | sqlHasMany => "sql_hasMany"
  | sqlBelongsToMany => "sql_belongsToMany"
  | crossHasMany => "cross_hasMany"
  | sqlHasOne => "sql_hasOne"
  | sqlBelongsTo => "sql_belongsTo"
  | crossHasOne => "cross_hasOne"
  | crossBelongsTo => "cross_belongsTo"

/-- How the kind ties the two sides together. -/
def shape : Kind → Shape
  | sqlBelongsTo | crossBelongsTo => .belongsTo
  | sqlHasOne | crossHasOne => .hasOne
  | sqlHasMany | crossHasMany => .hasMany
  | sqlBelongsToMany => .belongsToMany

/-- How many records the kind puts on the other side. -/
def arity : Kind → Arity
  | sqlHasMany | sqlBelongsToMany | crossHasMany => .many
  | sqlHasOne | sqlBelongsTo | crossHasOne | crossBelongsTo => .one

/-- The kind of a name, which must match letter for letter. -/
def ofName? (text : String) : Option Kind := all.find? (·.name == text)

theorem mem_all (k : Kind) : k ∈ all := by cases k <;> simp [all]

@[simp] theorem ofName?_name (k : Kind) : ofName? k.name = some k := by
  cases k <;> decide

end Kind

end Scaffold
