import Cadence.Identifiers

/-!
# Histories of a sink

Flushes of one sink one after the other, each on the tree that the one before has left.
-/

namespace Cadence.Sink

/-- What a flush comes to that does nothing. -/
def Flush.idle (t : FileTree) : Flush := ⟨.ok false, [], ⟨none⟩, t⟩

/-- What the flushes of a history come to. -/
def flushes (s : Sink) (t : FileTree) : List (List String) → List Flush
  | [] => []
  | ids :: history => s.flush t ids :: flushes (s.flush t ids).sink (s.flush t ids).tree history

end Cadence.Sink
