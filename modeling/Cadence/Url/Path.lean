import Cadence.Url.Form

/-!
# Paths of URLs

A path is a list of segments, each with a slash in front. Reading a path resolves the segments that stand for the
place itself or the one above; what looks like the letter of a drive is never left that way.

* `Path.text_append`: the text of two parts is the text of one after the other.
* `Path.resolve_append`: segments without dots are appended as they are.
-/

namespace Cadence.Url.Path

open Text

/-- The text of a path. -/
def text (segments : List (List Char)) : List Char := segments.flatMap fun s => '/' :: s

/-- Whether a segment stands for the place itself. -/
def isHere (s : List Char) : Bool := [['.'], ['%', '2', 'e'], ['%', '2', 'E']].contains s

/-- A segment in which the encoded dots are plain. -/
def plainDots : List Char → List Char
  | '%' :: '2' :: 'e' :: r => '.' :: plainDots r
  | '%' :: '2' :: 'E' :: r => '.' :: plainDots r
  | c :: r => c :: plainDots r
  | [] => []

/-- Whether a segment stands for the place above. -/
def isAbove (s : List Char) : Bool := plainDots s = ['.', '.']

/-- Whether a segment looks like the letter of a drive. -/
def isDrive : List Char → Bool
  | [c, d] => c.isAlpha && (d = ':' || d = '|')
  | _ => false

/-- The segments without the last, unless that is the letter of a drive. -/
def leave (segments : List (List Char)) : List (List Char) :=
  match segments.getLast? with
  | some s => if isDrive s then segments else segments.dropLast
  | none => segments

/-- The path after `done` when further segments are followed one by one. -/
def resolve (done : List (List Char)) : List (List Char) → List (List Char)
  | [] => done
  | [s] =>
    if isAbove s then leave done ++ [[]]
    else if isHere s then done ++ [[]]
    else done ++ [s]
  | s :: t :: r =>
    if isAbove s then resolve (leave done) (t :: r)
    else if isHere s then resolve done (t :: r)
    else resolve (done ++ [s]) (t :: r)

/-- The parts of a text between slashes; a backslash counts as a slash. -/
def split (s : List Char) : List (List Char) :=
  Form.splitAt '/' (s.map fun c => if c = '\\' then '/' else c)

/-- Reads a path, with or without a slash at its start. -/
def parse (s : List Char) : List (List Char) :=
  let s := match s with
    | '/' :: r => r
    | '\\' :: r => r
    | s => s
  resolve [] ((split s).map (Percent.encodeText Percent.keptInPath))

/-- The characters that URLs do without wherever they stand. -/
def isDropped (c : Char) : Bool := c = '\t' || c = '\n' || c = '\r'

/-- A path with one further segment, which is taken as a whole. A segment of one or two dots adds nothing. -/
def push (segments : List (List Char)) (s : List Char) : List (List Char) :=
  if s = ['.'] || s = ['.', '.'] then segments
  else
    resolve (if segments = [[]] then [] else segments)
      [Percent.encodeText Percent.keptInSegment (s.filter fun c => !isDropped c)]

theorem text_append (a b : List (List Char)) : text (a ++ b) = text a ++ text b := by
  simp [text]

theorem resolve_append (done segments : List (List Char))
    (h : ∀ s ∈ segments, isAbove s = false ∧ isHere s = false) :
    resolve done segments = done ++ segments := by
  induction segments generalizing done with
  | nil => simp [resolve]
  | cons s r ih =>
    have hs := h s List.mem_cons_self
    cases r with
    | nil => simp [resolve, hs.1, hs.2]
    | cons t r =>
      simp only [resolve, hs.1, hs.2, Bool.false_eq_true, ↓reduceIte]
      rw [ih (done ++ [s]) fun x hx => h x (List.mem_cons_of_mem _ hx), List.append_assoc,
        List.singleton_append]

end Cadence.Url.Path
