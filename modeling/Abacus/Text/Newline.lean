/-!
# Line ends

A line may end with a line feed, a carriage return or both. `unifyNewlines` writes every line
end as a line feed.
-/

namespace Abacus.Text

/-- A text in which every line end is a line feed. -/
def unifyNewlines : List Char → List Char
  | [] => []
  | '\r' :: '\n' :: cs => '\n' :: unifyNewlines cs
  | '\r' :: cs => '\n' :: unifyNewlines cs
  | c :: cs => c :: unifyNewlines cs

end Abacus.Text
