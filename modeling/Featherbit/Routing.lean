/-
  ROUTE MATCHING (`routing/mod.rs`): which configured route handles a request.

  Every criterion of a rule must match; an absent one matches anything.  The route table is
  searched in order and its first matching route wins (`selectRoute`).
-/
import Featherbit.Config.Gateway

namespace Featherbit

/-- What routing looks at in a request. -/
structure RequestHead where
  path : String
  method : String
  headers : List (String × String)
  host : String

/-- Exact match, trailing `/*`, or `*` segments. -/
def matchPath (pattern path : String) : Bool :=
  if pattern = path then true
  else
    match stripSuffix "/*" pattern with
    | some stem => decide (path = stem) || startsWith path (stem ++ "/")
    | none =>
      let patternParts := splitChar '/' pattern
      let pathParts := splitChar '/' path
      if patternParts.length ≠ pathParts.length then false
      else (patternParts.zip pathParts).all fun (p, s) => decide (p = "*") || decide (p = s)

section Matching

variable [CaseMapping]

/-- `matches_route`. -/
def matchesRoute (rule : MatchRule) (req : RequestHead) : Bool :=
  (match rule.path with
    | some pattern => matchPath pattern req.path
    | none => true) &&
  (rule.methods.isEmpty ||
    rule.methods.any fun m => decide (toUppercase m = toUppercase req.method)) &&
  (rule.headers.toList.all fun (key, value) =>
    req.headers.any fun (k, v) => decide (toLowercase k = toLowercase key) && decide (v = value)) &&
  (match rule.host with
    | some host => eqIgnoreAsciiCase req.host host
    | none => true)

/-- The first entry of a route table that matches. -/
def selectRoute {γ : Type} (table : List (RouteConfig × γ)) (req : RequestHead) :
    Option (RouteConfig × γ) :=
  table.find? fun entry => matchesRoute entry.1.matchRule req

/-- The graphs of a table have no say in the selection. -/
theorem selectRoute_route {γ : Type} (table : List (RouteConfig × γ)) (req : RequestHead) :
    (selectRoute table req).map (·.1) =
      (table.map (·.1)).find? fun route => matchesRoute route.matchRule req := by
  rw [List.find?_map]
  rfl

end Matching

example : matchPath "/api/v1/*" "/api/v1" = true := by decide
example : matchPath "/api/v1/*" "/api/v10" = false := by decide
example : matchPath "/api/*/users" "/api/v1/users" = true := by decide

end Featherbit
