/-!
# Insertion-ordered mappings

A mapping from names to values is the list of its entries in the order in which their names first
came. Writing to a name that is there keeps its position. That no name stands twice is not part of
the type: `NamesDistinct` says it, and every operation here keeps it.
-/
namespace Mson

abbrev Mapping (α : Type) := List (String × α)

namespace Mapping

variable {α β : Type}

def names (entries : Mapping α) : List String := entries.map Prod.fst

def values (entries : Mapping α) : List α := entries.map Prod.snd

def NamesDistinct (entries : Mapping α) : Prop := (names entries).Nodup

def get? : Mapping α → String → Option α
  | [], _ => none
  | (name, value) :: rest, wanted => if name = wanted then some value else get? rest wanted

def has (entries : Mapping α) (name : String) : Bool := (get? entries name).isSome

/-- Gives `name` its value: in place if the name is there, at the end if not. -/
def put : Mapping α → String → α → Mapping α
  | [], name, value => [(name, value)]
  | (other, old) :: rest, name, value =>
      if other = name then (name, value) :: rest else (other, old) :: put rest name value

/-- Writes the entries of `changes` onto `base`, one after the other. -/
def overwrite (base changes : Mapping α) : Mapping α :=
  changes.foldl (fun entries entry => put entries entry.1 entry.2) base

/-- Of entries with one name the last value counts, at the place of the first. -/
def ofEntries (entries : List (String × α)) : Mapping α := overwrite [] entries

def mapValues (f : α → β) (entries : Mapping α) : Mapping β :=
  entries.map fun entry => (entry.1, f entry.2)

def erase (entries : Mapping α) (name : String) : Mapping α :=
  entries.filter fun entry => entry.1 ≠ name

end Mapping

end Mson
