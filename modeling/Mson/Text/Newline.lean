/-!
# Line ends

In files a line may end in a line feed, a carriage return, or both in turn. Reading a file turns
each into one line feed.
-/
namespace Mson.Text

def unifyNewlines : List Char → List Char
  | [] => []
  | '\r' :: '\n' :: rest => '\n' :: unifyNewlines rest
  | '\r' :: rest => '\n' :: unifyNewlines rest
  | c :: rest => c :: unifyNewlines rest

end Mson.Text
