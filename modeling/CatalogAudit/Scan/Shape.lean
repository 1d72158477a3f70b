/-
  CatalogAudit.Scan.Shape — the shapes that the scanner looks for in source text.

  Calls are recognised by their text alone: a name, an opening parenthesis and one
  argument. Blanks may stand around the argument. Quotes may be single or double, and
  need not be the same on both sides.
-/

import CatalogAudit.Text.Pattern.Search
import CatalogAudit.Text.Word

namespace CatalogAudit.Shape

open Text Text.Pattern

/-! ## Parts -/

def blanks : Pattern := .span isBlank

def isQuote (c : Char) : Bool := c == '\'' || c == '"'

def notQuote (c : Char) : Bool := !isQuote c

/-- A quoted text that is not empty; the text is a field. -/
def quotedField : Pattern := all [.one isQuote, .field notQuote, .one isQuote]

/-- A whole word: no word character comes right before it or after it. -/
def word : Pattern := .seq (.edge isWord) (.field isWord)

/-- A call of whatever comes before, with one argument. -/
def argument (p : Pattern) : Pattern := all [char '(', blanks, p, blanks, char ')']

/-- A call of the word characters that come next, wherever their word starts. -/
def wordCall (p : Pattern) : Pattern := .seq (.field isWord) (argument p)

def notBrace (c : Char) : Bool := c != '\x7d'

/-! ## Declarations -/

def getTranslations : List Char := "getTranslations".toList

def useTranslations : List Char := "useTranslations".toList

/-- An object literal with the namespace among its fields. -/
def namespaceObject : Pattern :=
  all [char '\x7b', .stretch notBrace, .text "namespace:".toList, blanks, quotedField,
    .span notBrace, char '\x7d']

/-- `getTranslations("ns")` or `getTranslations(…)` of an object with `namespace: "ns"`. -/
def namespaceCall : Pattern :=
  .seq (.text getTranslations) (argument (.alt namespaceObject quotedField))

/-- `useTranslations("ns")`. -/
def hookCall : Pattern := .seq (.text useTranslations) (argument quotedField)

/-- `const t =`. -/
def constant : Pattern :=
  all [.text "const".toList, .one isBlank, blanks, .field isWord, blanks, char '=']

/-! ## Lookups -/

/-- `t("key")`. -/
def literalCall : Pattern := wordCall quotedField

def notBacktick (c : Char) : Bool := c != '`'

/-- A template in backticks; the template is a field. -/
def templateField : Pattern := all [char '`', .field notBacktick, char '`']

/-- A call of a word with a template. -/
def templateCall : Pattern := wordCall templateField

/-- Two runs of word characters with a dot between them; both are fields. -/
def dottedField : Pattern := all [.field isWord, char '.', .field isWord]

/-- `t(item.key)`. -/
def propertyCall : Pattern := wordCall dottedField

/-- An object literal given to a name, up to the value of its field `key`. -/
def keyField : Pattern :=
  all [word, blanks, char '=', blanks, char '\x7b', .stretch notBrace, .text "key:".toList, blanks,
    quotedField]

/-! ## Components and routes -/

/-- The `id` attribute of a tag that starts with `name`. -/
def idAttribute (name : List Char) : Pattern :=
  all [char '<', .text name, .stretch (· != '>'), .text "id=".toList, quotedField]

def isParenthesis (c : Char) : Bool := c == '(' || c == ')'

/-- A directory in parentheses. -/
def group : Pattern := all [char '(', .one (· != ')'), .span (· != ')'), char ')', char '/']

/-- The directory below `marker`, past one group at most. -/
def route (marker : List Char) : Pattern :=
  all [.text marker, char '/', .optional group,
    .field (fun c => c != '/' && !isParenthesis c), char '/']

end CatalogAudit.Shape
