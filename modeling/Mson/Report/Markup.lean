/-!
# Markup

Elements with attributes, and texts, written with the characters escaped that would be read as
markup.
-/
namespace Mson.Report

inductive Markup where
  | text (content : String)
  | element (name : String) (attributes : List (String × String)) (children : List Markup)

namespace Markup

def escapeChar (c : Char) : List Char :=
  if c = '&' then "&amp;".toList
  else if c = '<' then "&lt;".toList
  else if c = '>' then "&gt;".toList
  else if c = '\x22' then "&quot;".toList
  else [c]

def escape (text : String) : String := String.ofList (text.toList.flatMap escapeChar)

def writtenAttribute (named : String × String) : String :=
  " " ++ named.1 ++ "=\"" ++ escape named.2 ++ "\""

mutual

def written : Markup → String
  | .text content => escape content
  | .element name attributes children =>
      "<" ++ name ++ String.join (attributes.map writtenAttribute) ++ ">" ++
        writtenAll children ++ "</" ++ name ++ ">"

def writtenAll : List Markup → String
  | [] => ""
  | child :: children => child.written ++ writtenAll children

end

/-- A whole document. -/
def document (root : Markup) : String :=
  "<?xml version=\"1.0\" encoding=\"UTF-8\" standalone=\"yes\"?>\n" ++ root.written

end Markup

end Mson.Report
