import ScreenFlow.Json.Record
import ScreenFlow.Text.Utf8

/-!
# Host

The effects that a screen has on the application around it.
-/

namespace ScreenFlow

inductive ToastVariant where
  | info
  | success
  | warning
  | error
deriving DecidableEq, Repr, Inhabited

namespace ToastVariant

def all : List ToastVariant := [info, success, warning, error]

def name : ToastVariant → String
  | info => "info"
  | success => "success"
  | warning => "warning"
  | error => "error"

/-- Any name that is not known means plain information. -/
def ofName : String → ToastVariant
  | "success" => success
  | "warning" | "warn" => warning
  | "error" | "danger" => error
  | _ => info

def decode : Decoder ToastVariant := .oneOf all name

def toJson (v : ToastVariant) : Json := .str v.name

end ToastVariant

inductive HostCall where
  | toast (message : String) (variant : ToastVariant)
  | navigate (href : String) (replace : Bool)
  | openModal (id : String)
  | closeModal (id : String)
  | download (filename contentType : String) (data : Bytes)
deriving DecidableEq, Repr, Inhabited

end ScreenFlow
