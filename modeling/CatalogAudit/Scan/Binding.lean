/-
  CatalogAudit.Scan.Binding — the calls that give a file its namespaces.

  `getTranslations` returns a lookup function for a namespace, and so does the hook
  `useTranslations`. The identifier that receives it is looked for in the text before the
  call: for the hook in the call's own line, otherwise in the last lines, nearest first.
-/

import CatalogAudit.Scan.Source

namespace CatalogAudit.Scan

open Text Source

/-- How many lines are looked at for the identifier, the call's own line among them. -/
def lookbackLines : Nat := 5

/-- The last lines of a reversed text, last first, `count` of them at most. -/
def lastLines : (count : Nat) → (before : List Char) → List (List Char)
  | 0, _ => []
  | count + 1, before =>
    (before.takeWhile (· != '\n')).reverse ::
      match before.dropWhile (· != '\n') with
      | [] => []
      | _ :: before => lastLines count before

/-- The first identifier that a line declares. -/
def declared? (line : List Char) : Option String :=
  (Shape.constant.find? line).bind fun m => m.fields.head?.map String.ofList

def mentionsCall (line : List Char) : Bool :=
  occurs Shape.useTranslations line || occurs Shape.getTranslations line

/-- The nearest declaration in the last lines, other calls left aside. -/
def receiver? (before : List Char) : Option String :=
  ((lastLines lookbackLines before).filter (!mentionsCall ·)).findSome? declared?

/-- The declaration in the call's own line. -/
def inlineReceiver? (before : List Char) : Option String :=
  (lastLines 1 before).findSome? declared?

/-- Records the namespace of a call and binds the identifier that receives it. -/
def addCall (receiver : List Char → Option String) (u : FileUsage) (before : List Char) :
    (fields : List String) → FileUsage
  | nspace :: _ =>
    let u := u.addNamespace nspace
    match receiver before with
    | some identifier => u.bind identifier nspace
    | none => u
  | [] => u

/-- `getTranslations("ns")`, most often awaited and bound a few lines around the call. -/
def namespaceCalls : Finder := fun source =>
  eachMatch Shape.namespaceCall source.text (addCall receiver?)

/-- `const t = useTranslations("ns")`. -/
def hookCalls : Finder := fun source =>
  eachMatch Shape.hookCall source.text (addCall inlineReceiver?)

end CatalogAudit.Scan
