import Switchyard.Text.Sorted

/-!
# Routes

A route names a method of an interface. Tables keyed by routes keep the order in which the routes
first came; a later entry of the same route takes the place of the earlier one.
-/

namespace Switchyard

/-- The name of a method of an interface. -/
structure Route where
  interface : String
  method : String
  deriving DecidableEq, Repr, Inhabited

namespace Route

def text (route : Route) : String := route.interface ++ "::" ++ route.method

/-- Whether a route comes no later than another: by interface, then by method. -/
def precedes (a b : Route) : Bool :=
  if a.interface = b.interface then !decide (b.method < a.method)
  else decide (a.interface < b.interface)

def sorted (routes : List Route) : List Route := routes.mergeSort precedes

end Route

abbrev RouteMap (α : Type) := List (Route × α)

namespace RouteMap

variable {α : Type}

def find? (table : RouteMap α) (route : Route) : Option α :=
  (List.find? (·.1 == route) table).map (·.2)

def put (table : RouteMap α) (route : Route) (x : α) : RouteMap α :=
  match table with
  | [] => [(route, x)]
  | (r, y) :: rest => if r = route then (r, x) :: rest else (r, y) :: put rest route x

/-- The table of some entries, put in one after another. -/
def ofList (entries : List (Route × α)) : RouteMap α :=
  entries.foldl (fun table (route, x) => table.put route x) []

def routes (table : RouteMap α) : List Route := List.map (·.1) table

end RouteMap

end Switchyard
