import ScreenFlow.Fault
import ScreenFlow.Http.Request
import ScreenFlow.Http.Response

/-!
# Prepared answers to requests

A route serves the requests whose URL holds a text, with a method or with any. The first route that
serves a request answers it. A route gives its answers in order, and the last one again and again.
-/

namespace ScreenFlow.Simulation

inductive RouteAnswer where
  | respond (r : Reply)
  | fail (f : Fault)
  /-- Never comes to an end. -/
  | hang
deriving Repr, Inhabited

structure Route where
  method : Option Method
  part : String
  answers : List RouteAnswer
deriving Repr, Inhabited

namespace Route

def serves (r : Route) (q : Request) : Bool :=
  r.method.all (· == q.method) && Text.contains q.url r.part

/-- The next answer, and the route after it. -/
def take (r : Route) : Option RouteAnswer × Route :=
  match r.answers with
  | [] => (none, r)
  | [a] => (some a, r)
  | a :: rest => (some a, { r with answers := rest })

end Route

abbrev Routes := List Route

namespace Routes

/-- Adds an answer to the route of the same method and text, or a new route. -/
def add (rs : Routes) (method : Option Method) (part : String) (a : RouteAnswer) : Routes :=
  match rs with
  | [] => [⟨method, part, [a]⟩]
  | r :: rest =>
    if r.method == method && r.part == part then { r with answers := r.answers ++ [a] } :: rest
    else r :: add rest method part a

/-- The answer to a request, and the routes after it. -/
def take (rs : Routes) (q : Request) : Option RouteAnswer × Routes :=
  match rs with
  | [] => (none, [])
  | r :: rest =>
    if r.serves q then (r.take.1, r.take.2 :: rest)
    else ((take rest q).1, r :: (take rest q).2)

/-- What a request gets that no route serves. -/
def unserved (q : Request) : RouteAnswer := .respond {
  status := 404
  headers := [("content-type", "application/json")]
  body := Utf8.encode
    (Json.obj [("message", .str ("no scripted route for " ++ q.url))]).render }

end Routes

end ScreenFlow.Simulation
