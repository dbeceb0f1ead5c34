import Mson.Element.Basic

/-!
# References between types

An element mentions the declared types it is named after or includes, anywhere in its subtree. The
types reachable from it are those it mentions, those they mention, and so on; a type that is
reachable from itself cannot be rendered.
-/
namespace Mson

mutual

/-- The declared names that an element mentions. The content of a reference is not searched, and
of a member only its value. -/
def Element.mentions (types : SymbolTable) : Element → List String
  | ⟨name, content, _, _⟩ =>
      match Kind.ofName? name with
      | some .reference => content.targetMention types
      | some .member => content.valueMentions types
      | some _ => content.childMentions types
      | none =>
          if Mapping.has types name then name :: content.childMentions types
          else content.childMentions types

def Content.targetMention (types : SymbolTable) : Content → List String
  | .literal (.string name) => if Mapping.has types name then [name] else []
  | _ => []

def Content.valueMentions (types : SymbolTable) : Content → List String
  | .member _ (some value) => value.mentions types
  | _ => []

def Content.childMentions (types : SymbolTable) : Content → List String
  | .children items => mentionsOfAll types items
  | _ => []

def mentionsOfAll (types : SymbolTable) : List Element → List String
  | [] => []
  | item :: items => item.mentions types ++ mentionsOfAll types items

end

/-- The names that the declaration of a type mentions. -/
def successors (types : SymbolTable) (name : String) : List String :=
  match Mapping.get? types name with
  | some element => element.mentions types
  | none => []

/-- The declared names that are not among the given ones. -/
def unreached (types : SymbolTable) (reached : List String) : List String :=
  (Mapping.names types).filter fun name => !reached.contains name

theorem unreached_length_lt {types : SymbolTable} {reached : List String} {name : String}
    (declared : name ∈ Mapping.names types) (new : name ∉ reached) :
    (unreached types (name :: reached)).length < (unreached types reached).length := by
  have fewer : unreached types (name :: reached) =
      (unreached types reached).filter fun other => decide (other ≠ name) := by
    unfold unreached
    rw [List.filter_filter]
    apply List.filter_congr
    intro other _
    simp
  rw [fewer]
  apply List.length_filter_lt_length_iff_exists.mpr
  exact ⟨name, by simp [unreached, declared, new], by simp⟩

/-- Adds to `reached` every name that is pending or follows from one. Undeclared names lead nowhere
and are passed over. -/
def reachFrom (types : SymbolTable) (reached pending : List String) : List String :=
  match pending with
  | [] => reached
  | name :: rest =>
      if _ : name ∉ reached ∧ name ∈ Mapping.names types then
        reachFrom types (name :: reached) (successors types name ++ rest)
      else reachFrom types reached rest
termination_by ((unreached types reached).length, pending.length)
decreasing_by
  · obtain ⟨new, declared⟩ := ‹name ∉ reached ∧ name ∈ Mapping.names types›
    exact Prod.Lex.left _ _ (unreached_length_lt declared new)
  · exact Prod.Lex.right _ (by simp)

/-- The names of all types that rendering an element may visit. -/
def reachableNames (types : SymbolTable) (element : Element) : List String :=
  reachFrom types [] (element.mentions types)

/-- The names of the types that are reachable from themselves, in table order. -/
def cyclicNames (types : SymbolTable) : List String :=
  (types.filter fun entry => (reachableNames types entry.2).contains entry.1).map Prod.fst

/-- Names in the order of their code points. -/
def sortNames (names : List String) : List String := names.mergeSort fun a b => decide (a ≤ b)

end Mson
