/-
  CatalogAudit.Scan.Attribute — keys in the `id` attribute of a component.

  Such a key belongs to the first namespace that the file binds. In a file that binds none
  it belongs to the route: the directory below the marker in the path of the file.
-/

import CatalogAudit.Scan.Source

namespace CatalogAudit.Scan

open Text Source

/-- The namespace of the route that a file lies on. -/
def routeNamespace? (rules : ScanRules) (path : List Char) : Option String :=
  ((Shape.route rules.routeMarker.toList).find? path).bind fun m =>
    m.fields.head?.map String.ofList

def addAttribute (rules : ScanRules) (path : List Char) (component : String) (u : FileUsage) :
    (fields : List String) → FileUsage
  | [key] =>
    if isPlausibleKey key.toList then
      match u.bindings.firstNamespace? with
      | some nspace => u.addKey (fullKey nspace key)
      | none =>
        match routeNamespace? rules path with
        | some nspace => (u.addNamespace nspace).addKey (fullKey nspace key)
        | none => u.addNote .unresolved ("<" ++ component ++ " id=\"" ++ key ++ "\">")
    else u
  | _ => u

def componentKeys (rules : ScanRules) : Finder := fun source u =>
  rules.components.foldl
    (fun u component =>
      eachMatch (Shape.idAttribute component.toList) source.text
        (fun u _ fields => addAttribute rules source.path component u fields) u)
    u

end CatalogAudit.Scan
