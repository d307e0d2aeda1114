-- The routes of the service: which method and path lead to which request.
import Turnstile.Value.Basic

namespace Turnstile.Http

/-- What is asked of the service. -/
inductive Route where
  | health
  | start
  | send (name : String)
  | state (name : String)
  | stop (name : String)
  | allowed (name state : String)
  | responds (name event : String)
  deriving DecidableEq, Repr, Inhabited

/-- What a path leads to, for each method that it knows. A line break at the very end of a
path does not count, unless a name ends with it. -/
def routesAt (path : String) : List (String × Route) :=
  match path.splitOn "/" with
  | ["", a] => single a
  | ["", "instances", name] =>
    if name.isEmpty then [] else [("GET", .state name), ("DELETE", .stop name)]
  | ["", "instances", name, last] =>
    if !name.isEmpty && (last = "events" || last = "events\n") then [("POST", .send name)]
    else []
  | ["", "instances", name, "allowed", s] =>
    if name.isEmpty || s.isEmpty then [] else [("GET", .allowed name s)]
  | ["", "instances", name, "responds", event] =>
    if name.isEmpty || event.isEmpty then [] else [("GET", .responds name event)]
  | _ => []
where
  single (a : String) : List (String × Route) :=
    if a = "health" || a = "health\n" then [("GET", .health)]
    else if a = "instances" || a = "instances\n" then [("POST", .start)]
    else []

/-- A path with its last slashes taken away, or with one added if it has none. -/
def otherSlash (path : String) : String :=
  let trimmed := (path.toList.reverse.dropWhile (· = '/')).reverse
  if trimmed = path.toList then path ++ "/" else String.ofList trimmed

/-- What the search for a route leads to. -/
inductive RouteSearch where
  | found (route : Route)
  | wrongMethod
  | elsewhere
  | nowhere
  deriving DecidableEq, Repr, Inhabited

/-- Finds the route of a method and a path. -/
def findRoute (method path : String) : RouteSearch :=
  match routesAt path with
  | [] => if path ≠ "/" && !(routesAt (otherSlash path)).isEmpty then .elsewhere else .nowhere
  | routes =>
    match routes.lookup method with
    | some route => .found route
    | none => .wrongMethod

end Turnstile.Http
