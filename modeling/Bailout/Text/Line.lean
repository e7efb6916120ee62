/-!
# Lines

The first line of a text. A line ends at a line feed, and a carriage return right before that
belongs to the end of the line.
-/

namespace Bailout.Text

/-- The characters before the first end of a line. -/
def firstLineOf : List Char → List Char
  | [] => []
  | '\n' :: _ => []
  | '\r' :: '\n' :: _ => []
  | c :: cs => c :: firstLineOf cs

/-- The first line of a text. -/
def firstLine (s : String) : String := String.ofList (firstLineOf s.toList)

end Bailout.Text
