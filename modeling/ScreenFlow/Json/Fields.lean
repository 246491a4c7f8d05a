import ScreenFlow.Json.Record

/-!
# Lenient fields

Fields of an object that is described by hand: a field that is missing or of another kind counts as
empty. Only fields of a type of their own make a description unreadable.
-/

namespace ScreenFlow.Json

/-- A field that is there and not null. -/
def present? (v : Json) (key : String) : Option Json := (v.get? key).filter (!·.isNull)

def at_ (v : Json) (key : String) : Json := (v.get? key).getD .null

def textAt? (v : Json) (key : String) : Option String := (v.get? key).bind str?

def textAt (v : Json) (key : String) : String := (v.textAt? key).getD ""

def natAt? (v : Json) (key : String) : Option Nat := (v.get? key).bind fun x => Decoder.natBelow 64 x

def natAt (v : Json) (key : String) : Nat := (v.natAt? key).getD 0

def flagAt (v : Json) (key : String) (default : Bool) : Bool :=
  ((v.get? key).bind bool?).getD default

def itemsAt (v : Json) (key : String) : List Json := ((v.get? key).bind items?).getD []

def textsAt (v : Json) (key : String) : List String := (v.itemsAt key).filterMap str?

def fieldsAt (v : Json) (key : String) : List (String × Json) := ((v.get? key).bind fields?).getD []

def textFieldsAt (v : Json) (key : String) : List (String × String) :=
  (v.fieldsAt key).filterMap fun f => f.2.str?.map fun s => (f.1, s)

variable {α : Type}

/-- A typed field that may be absent or null. -/
def typedAt? (v : Json) (key : String) (d : Decoder α) : Option (Option α) :=
  match v.present? key with
  | some x => (d x).map some
  | none => some none

def typedAt (v : Json) (key : String) (default : α) (d : Decoder α) : Option α :=
  (v.typedAt? key d).map (·.getD default)

def typedItemsAt (v : Json) (key : String) (d : Decoder α) : Option (List α) :=
  (v.itemsAt key).mapM fun x => d (.ofJson x)

end ScreenFlow.Json
