import Mson.Value

/-!
# Structural equality

Two rendered values are equal if they denote the same JSON value: objects by names whatever their
order, arrays item by item, numbers by their exact value whether integer or double, and booleans
never equal to numbers. Elements that stand among them are compared by their parts; there a
boolean counts as the number one or zero, and NaN equals itself.
-/
namespace Mson

/-- A number or boolean as an exact value in units of `2 ^ -1074`. -/
def Json.looseUnits? : Json → Option Int
  | .bool value => some (if value then (powerOf 2 Double.unitExponent : Int) else 0)
  | .int value => some (value * powerOf 2 Double.unitExponent)
  | .double value => value.units?
  | _ => none

/-- Comparison of scalars in which booleans count as numbers. -/
def Json.looseScalarEq : Json → Json → Bool
  | .null, .null => true
  | .string left, .string right => left == right
  | .double .nan, .double .nan => true
  | .double (.infinity left), .double (.infinity right) => left == right
  | left, right =>
      match left.looseUnits?, right.looseUnits? with
      | some a, some b => a == b
      | _, _ => false

mutual

def Json.looseEq : Json → Json → Bool
  | .array left, .array right => Json.looseEqItems left right
  | .object left, .object right =>
      left.length == right.length && Json.looseEqEntries left right
  | left, right => left.looseScalarEq right

def Json.looseEqItems : List Json → List Json → Bool
  | [], [] => true
  | left :: lefts, right :: rights => left.looseEq right && Json.looseEqItems lefts rights
  | _, _ => false

def Json.looseEqEntries : List (String × Json) → Mapping Json → Bool
  | [], _ => true
  | (name, left) :: lefts, rights =>
      (match Mapping.get? rights name with
        | some right => left.looseEq right
        | none => false) && Json.looseEqEntries lefts rights

end

mutual

def Element.looseEq : Element → Element → Bool
  | ⟨name, content, metadata, attributes⟩, other =>
      name == other.name && content.looseEq other.content &&
        (Json.object metadata).looseEq (.object other.metadata) &&
        (Json.object attributes).looseEq (.object other.attributes)

def Content.looseEq : Content → Content → Bool
  | .absent, .absent => true
  | .children left, .children right => Element.looseEqItems left right
  | .member key none, .member other none => key.looseEq other
  | .member key (some value), .member other (some otherValue) =>
      key.looseEq other && value.looseEq otherValue
  | .literal left, .literal right => left.looseEq right
  | _, _ => false

def Element.looseEqItems : List Element → List Element → Bool
  | [], [] => true
  | left :: lefts, right :: rights => left.looseEq right && Element.looseEqItems lefts rights
  | _, _ => false

end

namespace Value

mutual

/-- Whether two rendered values denote the same value. -/
def equal : Value → Value → Bool
  | .null, .null => true
  | .bool left, .bool right => left == right
  | .int left, .int right => left == right
  | .int left, .double right => right.eqInt left
  | .double left, .int right => left.eqInt right
  | .double left, .double right => left.valueEq right
  | .string left, .string right => left == right
  | .array left, .array right => equalItems left right
  | .array left, .collection right => left.isEmpty && right.isEmpty
  | .collection left, .array right => left.isEmpty && right.isEmpty
  | .collection left, .collection right => Element.looseEqItems left right
  | .object left, .object right =>
      (Mapping.names right).all (Mapping.has left ·) && equalEntries left right
  | .member key value, .member other otherValue =>
      (Content.member key value).looseEq (.member other otherValue)
  | _, _ => false

def equalItems : List Value → List Value → Bool
  | [], [] => true
  | left :: lefts, right :: rights => equal left right && equalItems lefts rights
  | _, _ => false

/-- Whether every entry has an equal one under its name. -/
def equalEntries : List (String × Value) → Mapping Value → Bool
  | [], _ => true
  | (name, left) :: lefts, rights =>
      (match Mapping.get? rights name with
        | some right => equal left right
        | none => false) && equalEntries lefts rights

end

/-- Whether all values equal the first one. -/
def allEqual : List Value → Bool
  | [] => true
  | first :: rest => rest.all (equal first ·)

end Value

end Mson
