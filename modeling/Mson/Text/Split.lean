/-!
# Splitting texts

A text is split at a mark into the parts between one mark and the next; it has one part more than
marks.
-/
namespace Mson.Text

def splitAt (mark : Char) (text : List Char) : List (List Char) :=
  text.foldr (fun c parts =>
    if c = mark then [] :: parts
    else match parts with
      | part :: others => (c :: part) :: others
      | [] => [[c]]) [[]]

end Mson.Text
