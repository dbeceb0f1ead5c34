import Mson.Schema.Rendering

/-!
# Rendering examples

A representative value of an element. Primitives show their content or a placeholder, a choice shows
its first, a group of exclusive options its first option. Null means that there is nothing to show:
objects leave such members out.
-/
namespace Mson

namespace Example

/-- The example of a primitive that declares no content. -/
def placeholder : Kind → Value
  | .boolean => .bool true
  | .number => .int 1
  | _ => .string "Hello, world!"

def ofPrimitive (kind : Kind) (element : Element) : Value :=
  match element.content with
  | .absent => placeholder kind
  | content => .ofContent content

/-- Adds a member to an object: a group of options by its first one, any other member by its
value. -/
def addMember (render : Element → Except RenderFault Value)
    (renderMembers : List Element → Except RenderFault (Mapping Value)) (entries : Mapping Value)
    (member : Element) : Except RenderFault (Mapping Value) := do
  if member.isOptionSet then
    match member.children with
    | [] => return entries
    | option :: _ => return Mapping.overwrite entries (← renderMembers option.children)
  else match member.slot?, member.memberValue? with
    | some key, some value => do
        let example_ ← render value
        return if example_.isNull then entries else Mapping.put entries key example_
    | _, _ => return entries

end Example

mutual

/-- The example of an element, if elements nest no deeper than `depth` and no expansion of mixins
takes more than `steps`. -/
def renderExampleWithin (steps : Nat) (types : SymbolTable) :
    Nat → Element → Except RenderFault Value
  | 0, _ => .error .depthExceeded
  | depth + 1, element =>
      match element.kind with
      | some .boolean => pure (Example.ofPrimitive .boolean element)
      | some .string => pure (Example.ofPrimitive .string element)
      | some .number => pure (Example.ofPrimitive .number element)
      | some .enum =>
          match element.children with
          | [] => pure .null
          | choice :: _ => renderExampleWithin steps types depth choice
      | some .array => do
          return .array (← element.children.mapM (renderExampleWithin steps types depth))
      | some .object | some .option => do
          return .object (← renderMembersWithin steps types depth element.children)
      | some .optionSet => do
          return .object (← renderMembersWithin steps types depth [element])
      | some .reference =>
          match element.target?.bind (Mapping.get? types) with
          | some target => renderExampleWithin steps types depth target
          | none => pure .null
      | some .member => pure .null
      | none =>
          match Mapping.get? types element.name with
          | some base => renderExampleWithin steps types depth (resolveInheritance base element)
          | none => pure .null

/-- The entries of the example of an object with the given members. -/
def renderMembersWithin (steps : Nat) (types : SymbolTable) :
    Nat → List Element → Except RenderFault (Mapping Value)
  | 0, _ => .error .depthExceeded
  | depth + 1, members =>
      match expandWithin types steps members with
      | none => .error .expansionExceeded
      | some members =>
          members.foldlM
            (Example.addMember (renderExampleWithin steps types depth)
              (renderMembersWithin steps types depth)) []

end

/-- The example of an element. -/
def renderExample (types : SymbolTable) (element : Element) : Except RenderFault Value :=
  renderExampleWithin expansionSteps types renderDepth element

end Mson
