import ScreenFlow.Http.Method

/-!
# Kinds of action

The closed set of main actions that a handler can name, and what each kind implies by itself.
-/

namespace ScreenFlow

inductive ActionKind where
  | navigation
  | openModal
  | closeModal
  | updateState
  | runScript
  | apiCall
  | crudCreate
  | crudRead
  | crudUpdate
  | crudDelete
  | auditLog
  | aiGenerate
  | graphql
  | graphqlMutation
  | graphqlSubscription
  | exportCsv
  | exportJson
  | voiceCommand
  | initiateCall
  | walletConnect
  | walletSign
  | toast
deriving DecidableEq, Repr, Inhabited

namespace ActionKind

def all : List ActionKind :=
  [navigation, openModal, closeModal, updateState, runScript, apiCall, crudCreate, crudRead,
   crudUpdate, crudDelete, auditLog, aiGenerate, graphql, graphqlMutation, graphqlSubscription,
   exportCsv, exportJson, voiceCommand, initiateCall, walletConnect, walletSign, toast]

def name : ActionKind → String
  | navigation => "navigation"
  | openModal => "open_modal"
  | closeModal => "close_modal"
  | updateState => "update_state"
  | runScript => "run_script"
  | apiCall => "api_call"
  | crudCreate => "crud_create"
  | crudRead => "crud_read"
  | crudUpdate => "crud_update"
  | crudDelete => "crud_delete"
  | auditLog => "audit_log"
  | aiGenerate => "ai_generate"
  | graphql => "graphql"
  | graphqlMutation => "graphql_mutation"
  | graphqlSubscription => "graphql_subscription"
  | exportCsv => "export_csv"
  | exportJson => "export_json"
  | voiceCommand => "voice_command"
  | initiateCall => "initiate_call"
  | walletConnect => "wallet_connect"
  | walletSign => "wallet_sign"
  | toast => "toast"

/-- Each kind has one name; navigation also answers to `navigate`. -/
def ofName? (s : String) : Option ActionKind :=
  (all.find? fun k => k.name == s).or (if s == "navigate" then some navigation else none)

/-- Whether a handler of this kind has to name a data source. -/
def needsDataSource : ActionKind → Bool
  | apiCall | crudCreate | crudRead | crudUpdate | crudDelete | aiGenerate | graphql
  | graphqlMutation | graphqlSubscription => true
  | _ => false

def isCrud : ActionKind → Bool
  | crudCreate | crudRead | crudUpdate | crudDelete => true
  | _ => false

/-- The method of a data source that declares none. -/
def crudMethod? : ActionKind → Option Method
  | crudCreate => some .post
  | crudRead => some .get
  | crudUpdate => some .put
  | crudDelete => some .delete
  | _ => none

/-- The confirmation shown when the handler has no message of its own. -/
def successMessage? : ActionKind → Option String
  | crudCreate => some "Created successfully"
  | crudUpdate => some "Updated successfully"
  | crudDelete => some "Deleted successfully"
  | _ => none

def decode : Decoder ActionKind := .choice ofName?

def toJson (k : ActionKind) : Json := .str k.name

end ActionKind

end ScreenFlow
