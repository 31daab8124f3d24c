import Cadence.Fault
import Cadence.FileTree
import Cadence.Log
import Cadence.Text.Blank
import Cadence.Text.Lines

/-!
# Identifier files

Files with one identifier a line. Reading skips blank lines and trims the others; writing replaces the file. A
sink writes the identifiers of a run at most once, and never touches the file if there are none.

* `Identifiers.isLine` says which identifiers survive being written and read.
* `Identifiers.read_ne_blank`: what is read is never blank.
* `Sink.flush_spent`: a sink that was flushed once does nothing any more.
-/

namespace Cadence

namespace Identifiers

open Text

/-- Whether an identifier stands for itself on a line: not empty, without line feeds, no blanks at its ends. -/
def isLine (id : String) : Bool :=
  !id.toList.isEmpty && !id.toList.contains '\n' && trim id.toList = id.toList

/-- The identifiers of a text, one a line. -/
def ofText (text : String) : List String :=
  (((lines text.toList).map trim).filter fun l => !l.isEmpty).map String.ofList

/-- The text of identifiers, one a line. -/
def toText (ids : List String) : String := String.ofList (unlines (ids.map String.toList))

/-- The identifiers in the file at a path. -/
def read (t : FileTree) (path : String) : Except Fault (List String) :=
  match t.readText path with
  | .ok text => .ok (ofText text)
  | .error e => .error (.system e)

/-- Writes identifiers to the file at a path, making the directories that it needs. -/
def write (t : FileTree) (path : String) (ids : List String) : Except Fault Unit × FileTree :=
  match t.writeWithParents path (toText ids).toUTF8 with
  | (.ok (), t) => (.ok (), t)
  | (.error e, t) => (.error (.system e), t)

theorem read_ne_blank {text id : String} (h : id ∈ ofText text) : id.toList ≠ [] := by
  simp only [ofText, List.mem_map, List.mem_filter] at h
  obtain ⟨l, ⟨_, hl⟩, rfl⟩ := h
  rw [String.toList_ofList]
  simpa using hl

end Identifiers

/-- Writes identifiers at most once; afterwards it has no path any more. -/
structure Sink where
  path : Option String
deriving DecidableEq, Repr

/-- What a flush comes to: whether it wrote, what it notes in the log, and the sink and the tree after it. -/
structure Sink.Flush where
  wrote : Except Fault Bool
  records : List Log.Record
  sink : Sink
  tree : FileTree

namespace Sink

/-- A sink for the file at a path. -/
def ofPath (path : String) : Sink := ⟨some path⟩

/-- The note on a run that made no identifiers. -/
def untouched (path : String) : Log.Record :=
  ⟨.info, "no identifiers produced, leaving file untouched", [("path", .bare path)]⟩

/-- The note on identifiers that were written. -/
def written (path : String) (count : Nat) : Log.Record :=
  ⟨.info, "identifiers written", [("path", .bare path), ("count", .count count)]⟩

/-- Writes the identifiers, if there are any and this is the first time. -/
def flush (s : Sink) (t : FileTree) (ids : List String) : Flush :=
  match s.path with
  | none => ⟨.ok false, [], ⟨none⟩, t⟩
  | some path =>
    if ids.isEmpty then ⟨.ok false, [untouched path], ⟨none⟩, t⟩
    else match Identifiers.write t path ids with
      | (.ok (), t) => ⟨.ok true, [written path ids.length], ⟨none⟩, t⟩
      | (.error f, t) => ⟨.error f, [], ⟨none⟩, t⟩

theorem flush_sink (s : Sink) (t : FileTree) (ids : List String) : (s.flush t ids).sink = ⟨none⟩ := by
  unfold flush
  split
  · rfl
  · split
    · rfl
    · split <;> rfl

theorem flush_spent (t : FileTree) (ids : List String) :
    (flush ⟨none⟩ t ids).wrote = .ok false ∧ (flush ⟨none⟩ t ids).tree = t := ⟨rfl, rfl⟩

end Sink
end Cadence
