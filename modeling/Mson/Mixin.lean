import Mson.Element.Basic

/-!
# Mixins

A reference among the members of an object stands for the children of the type it names. Expansion
works through a list of pending members: a reference is taken off and the children of its type are
put in its place, so mixins within mixins are expanded in turn. A type that includes itself would
keep the list from ever getting empty; `expandWithin` therefore counts its steps.
-/
namespace Mson

/-- The children a reference stands for; a reference to an undeclared name stands for none. -/
def includedChildren (types : SymbolTable) (reference : Element) : List Element :=
  match reference.target? with
  | some name => match Mapping.get? types name with
    | some target => target.children
    | none => []
  | none => []

/-- The members that are left when no reference is pending, or none if that takes more steps than
allowed. -/
def expandWithin (types : SymbolTable) : Nat → List Element → Option (List Element)
  | _, [] => some []
  | 0, _ :: _ => none
  | steps + 1, member :: rest =>
      if member.isReference then
        expandWithin types steps (includedChildren types member ++ rest)
      else (expandWithin types steps rest).map (member :: ·)

/-- Steps enough for every expansion that is of practical use. -/
def expansionSteps : Nat := 1000000

def expandMembers (types : SymbolTable) (members : List Element) : Option (List Element) :=
  expandWithin types expansionSteps members

end Mson
