import Mson.Element.KeyText

/-!
# Inheritance

A derived element is laid over its base: the base's name stays, annotations and members of the
derived element replace those of the base that go by the same name, and whatever is new follows
after.
-/
namespace Mson

/-- The name under which a child of a collection may be replaced. Only members with a key have
one. -/
def Element.slot? (element : Element) : Option String :=
  if element.isMember then element.memberKey? else none

/-- Puts a child in the place of the one with the given slot, or at the end. -/
def replaceMember (key : String) (child : Element) : List Element → List Element
  | [] => [child]
  | other :: rest =>
      if other.slot? = some key then child :: rest else other :: replaceMember key child rest

/-- Puts a child in the place of the one with its slot, or at the end. -/
def putMember (children : List Element) (child : Element) : List Element :=
  match child.slot? with
  | some key => replaceMember key child children
  | none => children ++ [child]

/-- Of members with one key the last definition is kept, at the place of the first. All other
children are kept where they are. -/
def uniqueMembers (children : List Element) : List Element := children.foldl putMember []

/-- Joins two collections; members are matched by key only if the first child is a member. -/
def joinChildren (base derived : List Element) : List Element :=
  let children := base ++ derived
  match children with
  | first :: _ => if first.isMember then uniqueMembers children else children
  | [] => []

/-- Content of two shapes does not combine: the derived content stands. -/
def combineContent : Content → Content → Content
  | base, .absent => base
  | .absent, derived => derived
  | .children base, .children derived => .children (joinChildren base derived)
  | _, derived => derived

def resolveInheritance (base derived : Element) : Element where
  name := base.name
  content := combineContent base.content derived.content
  metadata := Mapping.overwrite base.metadata derived.metadata
  attributes := Mapping.overwrite base.attributes derived.attributes

end Mson
