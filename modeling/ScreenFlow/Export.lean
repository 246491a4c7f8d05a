import ScreenFlow.Json.Printer
import ScreenFlow.Text.Utf8

/-!
# Exported tables

Rows of objects as comma-separated records: a field that holds a comma, a quote or a line end is
quoted, a quote inside is doubled, and every record ends with CR LF.
-/

namespace ScreenFlow.Csv

def needsQuotes (cell : List Char) : Bool := cell.any fun c => [',', '"', '\n', '\r'].contains c

def escape (cell : List Char) : List Char := cell.flatMap fun c => if c = '"' then ['"', '"'] else [c]

def field (cell : List Char) : List Char :=
  if needsQuotes cell then '"' :: escape cell ++ ['"'] else cell

def fields : List (List Char) → List Char
  | [] => []
  | [c] => field c
  | c :: cs => field c ++ ',' :: fields cs

def line (cells : List (List Char)) : List Char := fields cells ++ ['\r', '\n']

/-- The text of a row at a column; a row that is no object has none. -/
def cell (row : Json) (column : String) : List Char :=
  match row.get? column with
  | some v => v.inlineText.toList
  | none => []

/-- The keys of all rows in the order in which they are first seen. -/
def columns (rows : List Json) : List String :=
  rows.foldl (fun seen row =>
    ((row.fields?.getD []).map (·.1)).foldl (fun seen k => if seen.contains k then seen else seen ++ [k])
      seen) []

def table (columns : List String) (rows : List Json) : String :=
  String.ofList (line (columns.map String.toList) ++
    rows.flatMap fun row => line (columns.map (cell row)))

end ScreenFlow.Csv
