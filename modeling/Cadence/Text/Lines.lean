/-!
# Lines

A line ends at a line feed; one carriage return right before the line feed belongs to the end and not to
the line. What follows the last line feed is a line of its own unless it is empty.
-/

namespace Cadence.Text

/-- A reversed line without the carriage return that ended it. -/
def dropReturn : List Char → List Char
  | '\r' :: r => r
  | r => r

/-- The lines of a text, given the reversed beginning of the current one. -/
def linesFrom (line : List Char) : List Char → List (List Char)
  | [] => if line.isEmpty then [] else [line.reverse]
  | c :: r => if c = '\n' then (dropReturn line).reverse :: linesFrom [] r else linesFrom (c :: line) r

/-- The lines of a text. -/
def lines (s : List Char) : List (List Char) := linesFrom [] s

/-- Each line followed by a line feed. -/
def unlines (ls : List (List Char)) : List Char := ls.flatMap fun l => l ++ ['\n']

end Cadence.Text
