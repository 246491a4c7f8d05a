import ScreenFlow.Handler.Kind
import ScreenFlow.Handler.Response

/-!
# Event handlers

A handler is a tree: each node declares one main action, and has the handlers that run before it,
after it succeeds, after it fails, and at the end in any case.
-/

namespace ScreenFlow

/-- What a handler declares about its own main action. -/
structure ActionSpec where
  action : ActionKind
  dataSourceId : Option String := none
  params : List (String × Json) := []
  successTransition : Option Transition := none
  errorTransition : Option Transition := none
  response : Option ResponseHandling := none
  /-- Patches applied before the action has answered. -/
  optimistic : List StatePatch := []
  successMessage : Option String := none
  errorMessage : Option String := none
  isLogin : Bool := false
  isLogout : Bool := false
deriving DecidableEq, Repr, Inhabited

namespace ActionSpec

def param? (s : ActionSpec) (key : String) : Option Json := Json.lookup s.params key

/-- A parameter that is written as a string, not resolved. -/
def paramText? (s : ActionSpec) (key : String) : Option String := (s.param? key).bind Json.str?

end ActionSpec

inductive EventHandler where
  | node (spec : ActionSpec) (before success error finally_ : List EventHandler)
deriving Repr, Inhabited

namespace EventHandler

def spec : EventHandler → ActionSpec
  | node s .. => s

def before : EventHandler → List EventHandler
  | node _ bs .. => bs

def success : EventHandler → List EventHandler
  | node _ _ ss .. => ss

def error : EventHandler → List EventHandler
  | node _ _ _ es _ => es

def finally_ : EventHandler → List EventHandler
  | node _ _ _ _ fs => fs

def action (h : EventHandler) : ActionKind := h.spec.action

/-- The four lists of sub-handlers, in the order in which they can run. -/
def children (h : EventHandler) : List EventHandler :=
  h.before ++ h.success ++ h.error ++ h.finally_

mutual

/-- The length of the longest chain of handlers from this one down. -/
def depth : EventHandler → Nat
  | node _ bs ss es fs => max (depthAll bs) (max (depthAll ss) (max (depthAll es) (depthAll fs))) + 1

def depthAll : List EventHandler → Nat
  | [] => 0
  | h :: rest => max (depth h) (depthAll rest)

end

/-- Reads handlers that nest less than `fuel` deep. -/
def decodeWithin : Nat → Decoder EventHandler
  | 0 => fun _ => none
  | fuel + 1 => .record do
    let many := Decoder.list (decodeWithin fuel)
    let action ← .required "action" ActionKind.decode
    let dataSourceId ← .optional "dataSourceId" .string
    let params ← .withDefault ["params"] [] .object
    let before ← .withDefault ["before"] [] many
    let success ← .withDefault ["success", "onSuccess"] [] many
    let error ← .withDefault ["error", "onError"] [] many
    let finally_ ← .withDefault ["finally"] [] many
    let successTransition ← .optional "successTransition" Transition.decode
    let errorTransition ← .optional "errorTransition" Transition.decode
    let response ← .optional "response" ResponseHandling.decode
    let optimistic ← .withDefault ["optimistic"] [] (.oneOrMany StatePatch.decode)
    let successMessage ← .optional "successMessage" .string
    let errorMessage ← .optional "errorMessage" .string
    let isLogin ← .withDefault ["isLogin"] false .bool
    let isLogout ← .withDefault ["isLogout"] false .bool
    let spec : ActionSpec :=
      { action, dataSourceId, params, successTransition, errorTransition, response, optimistic,
        successMessage, errorMessage, isLogin, isLogout : ActionSpec }
    return node spec before success error finally_

/-- A handler nests no deeper than the value that it is read from. -/
def decode : Decoder EventHandler := fun v => decodeWithin v.depth v

mutual

def toJson : EventHandler → Json
  | node s bs ss es fs =>
    .obj [("action", s.action.toJson), ("dataSourceId", .ofOption .str s.dataSourceId),
      ("params", .obj s.params), ("before", .arr (toJsonAll bs)), ("success", .arr (toJsonAll ss)),
      ("error", .arr (toJsonAll es)), ("finally", .arr (toJsonAll fs)),
      ("successTransition", .ofOption Transition.toJson s.successTransition),
      ("errorTransition", .ofOption Transition.toJson s.errorTransition),
      ("response", .ofOption ResponseHandling.toJson s.response),
      ("optimistic", .arr (s.optimistic.map StatePatch.toJson)),
      ("successMessage", .ofOption .str s.successMessage),
      ("errorMessage", .ofOption .str s.errorMessage),
      ("isLogin", .bool s.isLogin), ("isLogout", .bool s.isLogout)]

def toJsonAll : List EventHandler → List Json
  | [] => []
  | h :: rest => toJson h :: toJsonAll rest

end

end EventHandler

end ScreenFlow
