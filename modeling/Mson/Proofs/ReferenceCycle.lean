import Mathlib.Logic.Relation
import Mathlib.Order.WellFounded
import Mson.Proofs.Reachability

/-!
# Endless references

An element that reaches a cyclic type is not rendered. What that guards against is a sequence of names
without end, each mentioned by the declaration of the one before. There are finitely many names, so
such a sequence comes back to one of them, and a cycle can be gone round for ever: an element reaches a
cyclic type exactly if such a sequence starts at one of its mentions (`reaches_cyclic_iff_endless`).
-/
namespace Mson

variable {types : SymbolTable}

/-- Whether each name of a sequence is mentioned by the declaration of the one before. -/
def Endless (types : SymbolTable) (path : Nat → String) : Prop :=
  ∀ i, ∃ declaration, Mapping.get? types (path i) = some declaration ∧
    path (i + 1) ∈ declaration.mentions types

/-- Whether the declaration of the second name mentions the first one. -/
abbrev MentionedBy (types : SymbolTable) (next previous : String) : Prop :=
  next ∈ successors types previous

theorem mem_successors_iff {name next : String} :
    next ∈ successors types name ↔ ∃ declaration, Mapping.get? types name = some declaration ∧
      next ∈ declaration.mentions types := by
  unfold successors
  split
  · rename_i declaration found
    simp [found]
  · rename_i unknown
    simp [unknown]

theorem endless_iff {path : Nat → String} :
    Endless types path ↔ ∀ i, MentionedBy types (path (i + 1)) (path i) := by
  simp only [Endless, MentionedBy, mem_successors_iff]

/-- Following mentions comes to an end exactly where no endless sequence starts. -/
theorem acc_iff_not_endless {name : String} :
    Acc (MentionedBy types) name ↔ ∀ path : Nat → String, path 0 = name → ¬ Endless types path := by
  rw [acc_iff_isEmpty_descending_chain]
  constructor
  · exact fun noChain path start endless => noChain.false ⟨path, start, endless_iff.mp endless⟩
  · exact fun never => ⟨fun chain => never chain.1 chain.2.1 (endless_iff.mpr chain.2.2)⟩

/-- Where mentions come to an end from all given names, they do from whatever these lead to. -/
theorem ReachedFrom.acc {seeds : List String} (ends : ∀ name ∈ seeds, Acc (MentionedBy types) name)
    {name : String} (reached : ReachedFrom types seeds name) : Acc (MentionedBy types) name := by
  induction reached with
  | seed given _ => exact ends _ given
  | follow _ mentioned ih => exact ih.inv mentioned

theorem ReachedFrom.transGen {name later : String}
    (reached : ReachedFrom types (successors types name) later) :
    Relation.TransGen (MentionedBy types) later name := by
  induction reached with
  | seed given _ => exact .single given
  | follow _ mentioned ih => exact .head mentioned ih

/-- From a name that leads back to itself mentions can be followed for ever. -/
theorem not_acc_of_back {name : String} (back : ReachedFrom types (successors types name) name) :
    ¬ Acc (MentionedBy types) name := by
  intro ends
  -- the name is its own predecessor on the cycle, so it alone makes a chain without end
  have noChain := acc_iff_isEmpty_descending_chain.mp ends.transGen
  exact noChain.false ⟨fun _ => name, rfl, fun _ => back.transGen⟩

/-- In a table that declares no name twice, a cyclic type leads back to itself. -/
theorem reachedFrom_self_of_mem_cyclicNames (distinct : Mapping.NamesDistinct types) {name : String}
    (cyclic : name ∈ cyclicNames types) : ReachedFrom types (successors types name) name := by
  obtain ⟨declaration, declared, back⟩ := mem_cyclicNames_iff.mp cyclic
  rw [successors_of_get? (Mapping.get?_of_mem distinct declared)]
  exact mem_reachableNames_iff.mp back

/-- An element reaches a cyclic type exactly if an endless sequence of mentions starts at it. -/
theorem reaches_cyclic_iff_endless (distinct : Mapping.NamesDistinct types) (element : Element) :
    (∃ name ∈ reachableNames types element, name ∈ cyclicNames types) ↔
      ∃ path : Nat → String, path 0 ∈ element.mentions types ∧ Endless types path := by
  constructor
  · rintro ⟨name, reached, cyclic⟩
    by_contra noPath
    have ends : ∀ mentioned ∈ element.mentions types, Acc (MentionedBy types) mentioned := by
      intro mentioned isMention
      rw [acc_iff_not_endless]
      intro path start endless
      exact noPath ⟨path, start ▸ isMention, endless⟩
    exact not_acc_of_back (reachedFrom_self_of_mem_cyclicNames distinct cyclic)
      ((mem_reachableNames_iff.mp reached).acc ends)
  · rintro ⟨path, mentioned, endless⟩
    by_contra noCycle
    have acyclic : ∀ name ∈ reachableNames types element, name ∉ cyclicNames types :=
      fun name reached cyclic => noCycle ⟨name, reached, cyclic⟩
    have ends : Acc (MentionedBy types) (path 0) :=
      acc_mentioned_of_acyclic acyclic (mem_reachableNames_of_mentions mentioned)
    exact acc_iff_not_endless.mp ends path rfl endless

namespace LinkedList

/-! A list has a first node, and every node a next one. -/

def member (key type : String) : Element :=
  ⟨"member", .member ⟨"string", .literal (.string key), [], []⟩ (some ⟨type, .absent, [], []⟩), [], []⟩

def table : SymbolTable :=
  [("List", ⟨"object", .children [member "first" "Node"], [], []⟩),
    ("Node", ⟨"object", .children [member "value" "string", member "next" "Node"], [], []⟩)]

/-- The list itself is on no cycle; its first node is, and the next one of that, and so on. -/
theorem reaches_cyclic_node :
    Mapping.NamesDistinct table ∧
      (∃ name ∈ reachableNames table ⟨"List", .absent, [], []⟩, name ∈ cyclicNames table) := by
  have distinct : (Mapping.names table).Nodup := by decide
  have endless : Endless table fun i => if i = 0 then "List" else "Node" := by
    intro i
    cases i with
    | zero => exact ⟨_, rfl, by decide⟩
    | succ i =>
      have mentioned : "Node" ∈ successors table "Node" := by decide
      exact mem_successors_iff.mp mentioned
  exact ⟨distinct, (reaches_cyclic_iff_endless distinct _).mpr ⟨_, by decide, endless⟩⟩

end LinkedList

end Mson
