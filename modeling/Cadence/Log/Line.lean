import Cadence.Decimal.Shortest
import Cadence.Log
import Cadence.Text.Quoted

/-!
# Log lines

A record on one line: its level, its message, and its named values after it in their order.

* `Record.line_of_no_fields`: a record without values is its level and its message.
* `Record.line_push`: a further value comes last, after a blank.
-/

namespace Cadence.Log

/-- Numbers are positional from three zeros after the point to sixteen digits before it. -/
def numberLayout : Decimal.Layout := ⟨-4, 15, false⟩

/-- A number; one that is not finite is named. -/
def numberText (x : Float) : String :=
  match Decimal.shortest? numberLayout x with
  | some digits => digits
  | none => if x.isNaN then "NaN" else if 0.0 < x then "inf" else "-inf"

/-- The text of a value. -/
def Value.text : Value → String
  | quoted t => Text.Quoted.quote t
  | bare t => t
  | count n => toString n
  | number x => numberText x

/-- A named value after a blank. -/
def fieldText (f : String × Value) : String := " " ++ f.1 ++ "=" ++ f.2.text

/-- The line of a record. -/
def Record.line (r : Record) : String :=
  r.level.name ++ " " ++ r.message ++ String.join (r.fields.map fieldText)

theorem Record.line_of_no_fields {r : Record} (h : r.fields = []) :
    r.line = r.level.name ++ " " ++ r.message := by
  simp [Record.line, h, String.join]

theorem Record.line_push (r : Record) (f : String × Value) :
    { r with fields := r.fields ++ [f] }.line = r.line ++ fieldText f := by
  simp [Record.line, String.join, String.append_assoc]

end Cadence.Log
