import ScreenFlow.Json.Basic
import ScreenFlow.Text.Chars

/-!
# Paths into a value

A path such as `form.items[2].name` or `nodes["a.b"].label` is a list of segments. Reading follows
them; writing creates the objects and arrays that are missing, but never lengthens an array by more
than `maxGrowth` slots.
-/

namespace ScreenFlow

inductive Segment where
  | key (name : String)
  | index (position : Nat)
deriving DecidableEq, Repr

abbrev Path := List Segment

namespace Path

/-- How far past its end an index may extend an array. -/
def maxGrowth : Nat := 1024

/-- A plain key ends here; an empty one counts for nothing. -/
def plain (acc : List Char) : Path :=
  if acc.isEmpty then [] else [.key (String.ofList acc.reverse)]

/-- What stands between quotes, if the text begins and ends with the same kind of quote. -/
def unquote? (q : Char) (cs : List Char) : Option (List Char) :=
  match cs with
  | c :: rest => if c = q ∧ rest.getLast? = some q then some rest.dropLast else none
  | [] => none

/-- The segment between brackets: a quoted key, an index, or a bare key; nothing if it is blank. -/
def bracket (inner : List Char) : Path :=
  let inner := Text.trimChars inner
  match (unquote? '"' inner).or (unquote? '\'' inner) with
  | some key => [.key (String.ofList key)]
  | none =>
    match Text.natBelow? 64 inner with
    | some n => [.index n]
    | none => if inner.isEmpty then [] else [.key (String.ofList inner)]

/-- The scanner's place: inside a plain key, or inside brackets. -/
def scan : Option (List Char) → List Char → List Char → Path
  | none, acc, [] => plain acc
  | none, acc, c :: cs =>
    if c = '.' then plain acc ++ scan none [] cs
    else if c = '[' then plain acc ++ scan (some []) [] cs
    else scan none (c :: acc) cs
  | some inner, _, [] => bracket inner.reverse
  | some inner, _, c :: cs =>
    if c = ']' then bracket inner.reverse ++ scan none [] cs
    else scan (some (c :: inner)) [] cs

def parseChars (cs : List Char) : Path := scan none [] cs

/-- The segments of a path text. Every text is a path; the empty one has no segments. -/
def parse (text : String) : Path := parseChars text.toList

end Path

namespace Json

/-- The value at one segment. A key made of digits also counts as the index of an array. -/
def step? (v : Json) (s : Segment) : Option Json :=
  match s, v with
  | .key k, .obj fields => lookup fields k
  | .index i, .arr items => items[i]?
  | .key k, .arr items => (Text.natBelow? 64 k.toList).bind fun i => items[i]?
  | _, _ => none

/-- The value that the segments lead to. -/
def at? (v : Json) : Path → Option Json
  | [] => some v
  | s :: rest => (v.step? s).bind (·.at? rest)

/-- Every index lies less than `maxGrowth` past the end of the array that it addresses; an array
that is not there yet counts as empty. -/
def withinBounds : Option Json → Path → Bool
  | _, [] => true
  | v, .index i :: rest =>
    let items := (v.bind items?).getD []
    if Path.maxGrowth ≤ i - items.length then false else withinBounds items[i]? rest
  | v, .key k :: rest => withinBounds ((v.bind fields?).bind (lookup · k)) rest

/-- At least `n` items, filled up with null. -/
def pad (items : List Json) (n : Nat) : List Json :=
  items ++ List.replicate (n - items.length) .null

/-- What stands where a path goes on and nothing is there yet. -/
def blankFor : Path → Json
  | .index _ :: _ => .arr []
  | _ => .obj []

/-- Writes without regard to array growth. A value of the wrong kind on the way is replaced. -/
def write (v : Json) (path : Path) (new : Json) : Json :=
  match path with
  | [] => new
  | .key k :: rest =>
    let fields := v.fields?.getD []
    let child := match lookup fields k with
      | some c => if c.isNull && !rest.isEmpty then blankFor rest else c
      | none => blankFor rest
    .obj (insert fields k (write child rest new))
  | .index i :: rest =>
    let items := pad (v.items?.getD []) (i + 1)
    let child := match items[i]? with
      | some c => if c.isNull && !rest.isEmpty then blankFor rest else c
      | none => blankFor rest
    .arr (items.set i (write child rest new))

/-- Writes at a path, or refuses because an index lies too far out. -/
def writeAt? (v : Json) (path : Path) (new : Json) : Option Json :=
  if withinBounds (some v) path then some (v.write path new) else none

def getPath? (v : Json) (text : String) : Option Json := v.at? (Path.parse text)

/-- Writes at a path text; the flag says whether it happened. -/
def setPath (v : Json) (text : String) (new : Json) : Bool × Json :=
  match v.writeAt? (Path.parse text) new with
  | some after => (true, after)
  | none => (false, v)

end Json

end ScreenFlow
