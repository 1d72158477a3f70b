/-
  CatalogAudit.Proofs.Scan.Attributes — which attributes are taken for the keys of components.

  An attribute is taken where `<` and the name of a component stand in the text and, before the
  next `>`, `id=` with a quoted text: the last place of this kind counts (`LastIdAfter`). None is
  missed, unless its tag starts within what is taken for an earlier one
  (`exists_mem_attributesOf`).

  What the pass adds for an attribute depends on the bindings and on the path of the file alone,
  so it adds one attribute after the other (`componentKeys_eq_extend`).

  Neither name is looked at as a whole. The tag's name starts with that of the component and the
  attribute's name ends in `id` (`attributes_are_taken_by_name_ends`); either may be longer, and
  then the attribute is taken all the same (`longer_names_are_taken`).
-/

import CatalogAudit.Config.Basic
import CatalogAudit.Proofs.Scan.Lookups
import CatalogAudit.Proofs.Text.Splitting
import Mathlib.Data.List.Basic
import CatalogAudit.Scan.Attribute

namespace CatalogAudit.Shape

open Text Text.Pattern

/-! ## `id` in a tag -/

def idMark : List Char := "id=".toList

/-- In a text, after `front`, stands `<` with a name, and further on, with no `>` in between, `id=`
with a quoted text. -/
def IdAfter (text front name between key rest : List Char) : Prop :=
  ∃ written, text = front ++ '<' :: (name ++ (between ++ (idMark ++ (written ++ rest)))) ∧
    '>' ∉ between ∧ IsQuoted key written

/-- Of the places where `id=` stands so, the last one. -/
def LastIdAfter (text front name between key rest : List Char) : Prop :=
  IdAfter text front name between key rest ∧
    ∀ other value more, IdAfter text front name other value more → other.length ≤ between.length

/-- `id=` with a quoted text, which is a field. -/
def idValue : Pattern := all [.text idMark, quotedField]

theorem takes_idValue {c d : Cursor} {fields : List (List Char)} (h : Matches idValue c fields d) :
    ∃ key written, IsQuoted key written ∧ fields = [key] ∧
      c.after = idMark ++ (written ++ d.after) := by
  obtain ⟨_, _, _, mark, fromQuoted, rfl⟩ := matches_seq.1 h
  obtain ⟨_, _, _, quoted, finish, rfl⟩ := matches_seq.1 fromQuoted
  cases finish
  obtain ⟨hmark, rfl⟩ := takes_text mark
  obtain ⟨key, written, hquoted, rfl, hwritten⟩ := takes_quoted quoted
  exact ⟨key, written, hquoted, rfl, by rw [hmark, hwritten]⟩

theorem isSome_match?_idValue {key written : List Char} (h : IsQuoted key written)
    (before rest : List Char) : (idValue.match? ⟨before, idMark ++ (written ++ rest)⟩).isSome := by
  obtain ⟨opening, closing, rfl, hopening, hclosing, hne, hkey⟩ := h
  have hends : (closing :: rest).head?.any notQuote = false :=
    any_head?_cons (by simp [notQuote, hclosing]) rest
  have hwritten : opening :: (key ++ [closing]) ++ rest = opening :: (key ++ closing :: rest) := by
    simp
  rw [match?, hwritten]
  simp only [idValue, quotedField, all, List.foldr_cons, List.foldr_nil, matchThen_seq,
    matchThen_text, matchThen_one hopening, matchThen_field hne hkey hends,
    matchThen_one hclosing, matchThen_nothing]
  rfl

/-- After `<` and the name, the rest is found as far on as may be. -/
theorem match?_idAttribute (name before tail : List Char) :
    (idAttribute name).match? ⟨before, '<' :: (name ++ tail)⟩ =
      matchStretch (· != '>') idValue.match? (name.reverse ++ '<' :: before) tail := by
  rw [match?, idAttribute]
  simp only [all, List.foldr_cons, List.foldr_nil, matchThen_seq, matchThen_char, matchThen_text]
  rfl

section
variable {front name after : List Char}

theorem lastIdAfter_of_match? {fields : List (List Char)} {d : Cursor}
    (h : (idAttribute name).match? ⟨front.reverse, after⟩ = some (fields, d)) :
    ∃ between key, fields = [key] ∧
      LastIdAfter (front ++ after) front name between key d.after := by
  obtain ⟨tail, rfl⟩ : ∃ tail, after = '<' :: (name ++ tail) := by
    obtain ⟨_, _, _, first, fromName, -⟩ := matches_seq.1 (match?_sound h)
    obtain ⟨_, _, _, named, -, -⟩ := matches_seq.1 fromName
    obtain ⟨hfirst, -⟩ := takes_text first
    obtain ⟨hname, -⟩ := takes_text named
    rw [hname] at hfirst
    exact ⟨_, hfirst⟩
  rw [match?_idAttribute] at h
  obtain ⟨between, cs, rfl, hbetween, hvalue, hlast⟩ := matchStretch_eq_some h
  obtain ⟨key, written, hquoted, rfl, rfl⟩ := takes_idValue (match?_sound hvalue)
  have hopen : '>' ∉ between := fun hm => by simpa using hbetween _ hm
  refine ⟨between, key, rfl, ⟨written, rfl, hopen, hquoted⟩, ?_⟩
  rintro other value more ⟨written', htext, hother, hquoted'⟩
  by_contra hlonger
  -- further on there is nothing to be found, so the other place is not there
  have htail : between ++ (idMark ++ (written ++ d.after)) =
      other ++ (idMark ++ (written' ++ more)) :=
    List.append_cancel_left (List.cons.inj (List.append_cancel_left htext)).2
  obtain ⟨ys, rfl, hys⟩ | ⟨ys, rfl, -⟩ := List.append_eq_append_iff.1 htail
  · have hne : ys ≠ [] := by
      rintro rfl
      simp at hlonger
    have hnone := hlast ys _ hys hne fun y hy => bne_iff_ne.2 fun hclose =>
      hother (List.mem_append_right _ (hclose ▸ hy))
    have hsome := isSome_match?_idValue hquoted'
      (ys.reverse ++ (between.reverse ++ (name.reverse ++ '<' :: front.reverse))) more
    rw [hnone] at hsome
    cases hsome
  · simp at hlonger

theorem isSome_match?_idAttribute {text between key rest : List Char}
    (h : IdAfter text front name between key rest) :
    ∃ after, text = front ++ '<' :: after ∧
      ((idAttribute name).match? ⟨front.reverse, '<' :: after⟩).isSome := by
  obtain ⟨written, rfl, hopen, hquoted⟩ := h
  refine ⟨_, rfl, ?_⟩
  rw [match?_idAttribute]
  exact matchStretch_complete (fun x hx => bne_iff_ne.2 fun hclose => hopen (hclose ▸ hx))
    (isSome_match?_idValue hquoted _ rest)

end

end CatalogAudit.Shape

namespace CatalogAudit

open Text Text.Pattern Shape Source

/-! ## Additions -/

/-- What is added to the record of a file. -/
structure Addition where
  namespaces : List String
  finding : Finding
  deriving DecidableEq, Repr

def Addition.all (as : List Addition) : Addition :=
  ⟨as.flatMap (·.namespaces), .all (as.map (·.finding))⟩

/-- A name is listed once, at the end. -/
def listOnce (names : List String) (name : String) : List String :=
  if name ∈ names then names else names ++ [name]

namespace FileUsage

/-- Adds namespaces that are not listed yet, and what is found. -/
def extend (u : FileUsage) (a : Addition) : FileUsage :=
  (a.namespaces.foldl addNamespace u).add a.finding

theorem addNamespaces_eq (names : List String) (u : FileUsage) :
    names.foldl addNamespace u = { u with namespaces := names.foldl listOnce u.namespaces } := by
  induction names generalizing u with
  | nil => rfl
  | cons name names ih =>
    have hone : u.addNamespace name = { u with namespaces := listOnce u.namespaces name } := by
      unfold addNamespace listOnce
      split <;> rfl
    rw [List.foldl_cons, ih, hone, List.foldl_cons]

theorem extend_eq (u : FileUsage) (a : Addition) :
    u.extend a = { u with
      namespaces := a.namespaces.foldl listOnce u.namespaces
      keys := u.keys ++ a.finding.keys
      notes := u.notes ++ a.finding.notes } := by
  rw [extend, addNamespaces_eq]
  rfl

@[simp] theorem bindings_extend (u : FileUsage) (a : Addition) :
    (u.extend a).bindings = u.bindings := by rw [extend_eq]

@[simp] theorem extend_all_nil (u : FileUsage) : u.extend (.all []) = u := by
  simp [extend_eq, Addition.all, Finding.all]

theorem extend_all_append (u : FileUsage) (as bs : List Addition) :
    u.extend (.all (as ++ bs)) = (u.extend (.all as)).extend (.all bs) := by
  simp [extend_eq, Addition.all, Finding.all, List.foldl_append]

theorem extend_all_cons (u : FileUsage) (a : Addition) (as : List Addition) :
    u.extend (.all (a :: as)) = (u.extend a).extend (.all as) := by
  simp [extend_eq, Addition.all, Finding.all, List.foldl_append]

end FileUsage

namespace Scan

/-! ## The attributes of a text -/

/-- An attribute that is taken for the key of a component, in a tag that stands after `front`. -/
structure KeyAttribute where
  component : String
  front : List Char
  key : String
  deriving DecidableEq, Repr

/-- The attribute of a match. -/
def KeyAttribute.ofMatch? (component : String) (m : Match) : Option KeyAttribute :=
  m.fields.head?.map fun key => ⟨component, m.before.reverse, String.ofList key⟩

def attributesOf (text : List Char) (component : String) : List KeyAttribute :=
  ((idAttribute component.toList).findAll text).filterMap (KeyAttribute.ofMatch? component)

/-- The attributes that are taken, component by component and from left to right. -/
def takenAttributes (rules : ScanRules) (text : List Char) : List KeyAttribute :=
  rules.components.flatMap (attributesOf text)

/-- The place of a later tag lies within what is taken for an attribute. -/
def KeyAttribute.Covers (a : KeyAttribute) (text front : List Char) : Prop :=
  ∃ between rest, LastIdAfter text a.front a.component.toList between a.key.toList rest ∧
    a.front.length < front.length ∧ front.length + rest.length < text.length

section
variable {text : List Char} {component : String}

theorem exists_of_mem_findAll {m : Match} (h : m ∈ (idAttribute component.toList).findAll text) :
    ∃ key between rest, m.fields = [key] ∧
      LastIdAfter text m.before.reverse component.toList between key rest := by
  obtain ⟨rest, stop, rfl, hm⟩ := match?_of_mem_findAll h
  rw [← List.reverse_reverse m.before] at hm
  obtain ⟨between, key, hfields, hlast⟩ := lastIdAfter_of_match? hm
  exact ⟨key, between, stop.after, hfields, hlast⟩

theorem mem_attributesOf {a : KeyAttribute} (h : a ∈ attributesOf text component) :
    a.component = component ∧ ∃ between rest,
      LastIdAfter text a.front a.component.toList between a.key.toList rest := by
  obtain ⟨m, hm, ha⟩ := List.mem_filterMap.1 h
  obtain ⟨key, between, rest, hfields, hlast⟩ := exists_of_mem_findAll hm
  obtain rfl : ⟨component, m.before.reverse, String.ofList key⟩ = a := by
    simpa [KeyAttribute.ofMatch?, hfields] using ha
  exact ⟨rfl, between, rest, by simpa using hlast⟩

theorem mem_takenAttributes {rules : ScanRules} {a : KeyAttribute}
    (h : a ∈ takenAttributes rules text) :
    a.component ∈ rules.components ∧ ∃ between rest,
      LastIdAfter text a.front a.component.toList between a.key.toList rest := by
  obtain ⟨component, hcomponent, ha⟩ := List.mem_flatMap.1 h
  obtain ⟨rfl, hlast⟩ := mem_attributesOf ha
  exact ⟨hcomponent, hlast⟩

/-- A tag with `id=` in it has its attribute taken, or it starts within what is taken for an
earlier one. -/
theorem exists_mem_attributesOf {front between key rest : List Char}
    (h : IdAfter text front component.toList between key rest) :
    ∃ a ∈ attributesOf text component, a.front = front ∨ a.Covers text front := by
  obtain ⟨after, rfl, hsome⟩ := isSome_match?_idAttribute h
  obtain ⟨⟨fields, d⟩, hm⟩ := Option.isSome_iff_exists.1 hsome
  obtain ⟨us, vs, found, e, rfl, hearlier, hlisted, hreach⟩ :=
    exists_mem_findAll_of_match? (List.cons_ne_nil _ _) hm
  obtain ⟨between, value, rfl, hlast⟩ := lastIdAfter_of_match? hearlier
  refine ⟨⟨component, us, String.ofList value⟩, ?_, ?_⟩
  · exact List.mem_filterMap.2 ⟨_, hlisted, by simp [KeyAttribute.ofMatch?]⟩
  · rw [← List.append_assoc] at hlast
    by_cases hvs : vs = []
    · exact .inl (by rw [hvs, List.append_nil])
    · have hlength : 0 < vs.length := List.length_pos_iff.2 hvs
      have hlt := hreach.resolve_left hvs
      refine .inr ⟨between, e.after, by simpa using hlast, ?_, ?_⟩
      · simp only [List.length_append]
        omega
      · simp only [List.length_append] at hlt ⊢
        omega

end

/-! ## What is added for an attribute -/

/-- The key of an attribute belongs to the first namespace that is bound, or else to that of the
route; where there is neither, the attribute is noted. -/
def attributeAddition (rules : ScanRules) (path : List Char) (b : Bindings) (a : KeyAttribute) :
    Addition :=
  if isPlausibleKey a.key.toList then
    match b.firstNamespace? with
    | some nspace => ⟨[], [fullKey nspace a.key], []⟩
    | none =>
      match routeNamespace? rules path with
      | some nspace => ⟨[nspace], [fullKey nspace a.key], []⟩
      | none => ⟨[], [], [⟨.unresolved, "<" ++ a.component ++ " id=\"" ++ a.key ++ "\">"⟩]⟩
  else ⟨[], [], []⟩

section
variable (rules : ScanRules) (path : List Char)

theorem addAttribute_eq_extend (u : FileUsage) (a : KeyAttribute) :
    addAttribute rules path a.component u [a.key] =
      u.extend (attributeAddition rules path u.bindings a) := by
  by_cases hkey : isPlausibleKey a.key.toList = true
  · cases hbound : u.bindings.firstNamespace? with
    | some nspace =>
      simp [addAttribute, attributeAddition, hkey, hbound, FileUsage.extend, FileUsage.add,
        FileUsage.addKey]
    | none =>
      cases hroute : routeNamespace? rules path with
      | some nspace =>
        simp [addAttribute, attributeAddition, hkey, hbound, hroute, FileUsage.extend,
          FileUsage.add, FileUsage.addKey]
      | none =>
        simp [addAttribute, attributeAddition, hkey, hbound, hroute, FileUsage.extend,
          FileUsage.add, FileUsage.addNote]
  · simp [addAttribute, attributeAddition, hkey, FileUsage.extend, FileUsage.add]

theorem eachMatch_idAttribute (text : List Char) (component : String) (u : FileUsage) :
    eachMatch (idAttribute component.toList) text
        (fun u _ fields => addAttribute rules path component u fields) u =
      u.extend (.all ((attributesOf text component).map
        (attributeAddition rules path u.bindings))) := by
  unfold eachMatch attributesOf
  have hfields : ∀ m ∈ (idAttribute component.toList).findAll text, ∃ key, m.fields = [key] := by
    intro m hm
    obtain ⟨key, _, _, hfields, -⟩ := exists_of_mem_findAll hm
    exact ⟨key, hfields⟩
  generalize (idAttribute component.toList).findAll text = found at hfields ⊢
  induction found generalizing u with
  | nil => simp
  | cons m found ih =>
    obtain ⟨⟨key, hkey⟩, hfields⟩ := List.forall_mem_cons.1 hfields
    have ha : KeyAttribute.ofMatch? component m =
        some ⟨component, m.before.reverse, String.ofList key⟩ := by
      simp [KeyAttribute.ofMatch?, hkey]
    have hstep : addAttribute rules path component u (m.fields.map String.ofList) =
        u.extend (attributeAddition rules path u.bindings
          ⟨component, m.before.reverse, String.ofList key⟩) := by
      rw [hkey]
      exact addAttribute_eq_extend rules path u ⟨component, m.before.reverse, String.ofList key⟩
    rw [List.foldl_cons, ih _ hfields, List.filterMap_cons_some ha, List.map_cons,
      FileUsage.extend_all_cons]
    dsimp only
    rw [hstep, FileUsage.bindings_extend]

end

/-- The pass adds what is added for one attribute after the other. -/
theorem componentKeys_eq_extend (rules : ScanRules) (source : Source) (u : FileUsage) :
    componentKeys rules source u =
      u.extend (.all ((takenAttributes rules source.text).map
        (attributeAddition rules source.path u.bindings))) := by
  unfold componentKeys takenAttributes
  generalize rules.components = components
  induction components generalizing u with
  | nil => simp
  | cons component components ih =>
    rw [List.foldl_cons, eachMatch_idAttribute, ih, List.flatMap_cons, List.map_append,
      FileUsage.extend_all_append, FileUsage.bindings_extend]

/-! ## Names -/

/-- A character of an attribute's name. -/
def isAttributeChar (c : Char) : Bool := Config.isComponentChar c || c == '-' || c == ':'

/-- In a text, after `front`, stands a tag, and in it, after `lead`, a name, an equals sign and a
quoted text. The name of the tag is all characters of names that come after `<`, and that before
the equals sign all characters of names of attributes. -/
def StandsInTag (text front lead tag name value : List Char) : Prop :=
  ∃ written rest, text = front ++ '<' :: (lead ++ (name ++ '=' :: (written ++ rest))) ∧
    '>' ∉ lead ∧ IsQuoted value written ∧
    tag = (lead ++ (name ++ '=' :: (written ++ rest))).takeWhile Config.isComponentChar ∧
    (∀ c ∈ name, isAttributeChar c = true) ∧ ('<' :: lead).getLast?.any isAttributeChar = false

/-- The marks that close the values which are open, the innermost first, one character on. -/
def openedBy (closing : List Char) (c : Char) : List Char :=
  match closing with
  | [] => if isQuote c then [c] else if c = '\x7b' then ['\x7d'] else []
  | mark :: outer =>
    if c = mark then outer
    else if mark = '\x7d' then
      if isQuote c || !notBacktick c then c :: closing
      else if c = '\x7b' then '\x7d' :: closing
      else closing
    else closing

/-- At the end of a text of a tag no value is open. -/
def IsOutsideValues (lead : List Char) : Prop := lead.foldl openedBy [] = []

/-- In a text, after `front`, stands a tag with an attribute. -/
def HasAttribute (text front tag name value : List Char) : Prop :=
  ∃ lead, StandsInTag text front lead tag name value ∧ IsOutsideValues lead

/-- Where `id=` stands in a tag, the name of the tag starts with the one that was looked for, and
the name before the equals sign ends in `id`. -/
theorem standsInTag_of_idAfter {text front component between key rest : List Char}
    (hcomponent : ∀ c ∈ component, Config.isComponentChar c = true)
    (h : IdAfter text front component between key rest) :
    ∃ lead tag name, StandsInTag text front lead tag name key ∧ component <+: tag ∧
      "id".toList <:+ name := by
  obtain ⟨written, rfl, hopen, hquoted⟩ := h
  obtain ⟨ending, hsplit, hending⟩ := exists_trimEnd_append isAttributeChar (component ++ between)
  have hlast := any_getLast?_trimEnd isAttributeChar (component ++ between)
  generalize trimEnd isAttributeChar (component ++ between) = lead at hsplit hlast
  have htext : component ++ (between ++ (idMark ++ (written ++ rest))) =
      lead ++ ((ending ++ "id".toList) ++ '=' :: (written ++ rest)) := by
    have hmark : idMark = "id".toList ++ ['='] := by decide
    rw [← List.append_assoc, ← hsplit, hmark]
    simp
  have hclose : '>' ∉ lead := by
    intro hm
    have hm : '>' ∈ component ++ between := hsplit ▸ List.mem_append_left _ hm
    rcases List.mem_append.1 hm with hm | hm
    · exact absurd (hcomponent _ hm) (by decide)
    · exact hopen hm
  have hid : ∀ c ∈ "id".toList, isAttributeChar c = true := List.all_eq_true.1 (by decide)
  refine ⟨lead, _, ending ++ "id".toList,
    ⟨written, rest, by rw [htext], hclose, hquoted, rfl, ?_, ?_⟩, ?_, List.suffix_append _ _⟩
  · exact fun c hc => (List.mem_append.1 hc).elim (hending c) (hid c)
  · cases lead with
    | nil => decide
    | cons c lead => rwa [List.getLast?_cons_cons]
  · rw [← htext, List.takeWhile_append_of_pos hcomponent]
    exact List.prefix_append component _

end Scan

namespace Config

theorem isComponentName_of_invalid?_none {c : Config} (h : c.invalid? = none) :
    ∀ name ∈ c.keyComponents, isComponentName name = true := by
  unfold invalid? at h
  split at h
  · cases h
  · split at h
    · cases h
    · simpa using h

theorem isComponentChar_of_mem {name : String} (h : isComponentName name = true) :
    ∀ c ∈ name.toList, isComponentChar c = true := by
  rw [isComponentName, Bool.and_eq_true] at h
  exact List.all_eq_true.1 h.2

end Config

namespace Scan

/-- The pass over components adds what is added for one taken attribute after the other. Each
stands in a tag whose name starts with that of a component, under a name that ends in `id`; and
each tag of this kind has its attribute taken, or starts within what is taken for an earlier one.
So where no such name is longer or stands in a value, all that is taken are attributes `id` of
components. -/
theorem attributes_are_taken_by_name_ends (config : Config) (hvalid : config.invalid? = none)
    (source : Source) (u : FileUsage) :
    let rules := config.scanRules
    let taken := takenAttributes rules source.text
    componentKeys rules source u =
        u.extend (.all (taken.map (attributeAddition rules source.path u.bindings))) ∧
      (∀ a ∈ taken, a.component ∈ rules.components ∧ ∃ lead tag name,
        StandsInTag source.text a.front lead tag name a.key.toList ∧
          a.component.toList <+: tag ∧ "id".toList <:+ name) ∧
      (∀ component ∈ rules.components, ∀ front between key rest,
        IdAfter source.text front component.toList between key rest →
          ∃ a ∈ taken, a.component = component ∧
            (a.front = front ∨ a.Covers source.text front)) ∧
      ((∀ front lead tag name key, StandsInTag source.text front lead tag name key →
          (∃ component ∈ rules.components, component.toList <+: tag) → "id".toList <:+ name →
            (∃ component ∈ rules.components, component.toList = tag) ∧ name = "id".toList ∧
              IsOutsideValues lead) →
        ∀ a ∈ taken, ∃ component ∈ rules.components,
          HasAttribute source.text a.front component.toList "id".toList a.key.toList) := by
  intro rules taken
  have hnamed : ∀ a ∈ taken, a.component ∈ rules.components ∧ ∃ lead tag name,
      StandsInTag source.text a.front lead tag name a.key.toList ∧
        a.component.toList <+: tag ∧ "id".toList <:+ name := by
    intro a ha
    obtain ⟨hcomponent, between, rest, hid, -⟩ := mem_takenAttributes ha
    have hchars := Config.isComponentChar_of_mem
      (Config.isComponentName_of_invalid?_none hvalid a.component hcomponent)
    exact ⟨hcomponent, standsInTag_of_idAfter hchars hid⟩
  refine ⟨componentKeys_eq_extend rules source u, hnamed, ?_, ?_⟩
  · intro component hcomponent front between key rest hid
    obtain ⟨a, ha, hplace⟩ := exists_mem_attributesOf hid
    exact ⟨a, List.mem_flatMap.2 ⟨component, hcomponent, ha⟩, (mem_attributesOf ha).1, hplace⟩
  · intro hwhole a ha
    obtain ⟨hcomponent, lead, tag, name, hstands, htag, hname⟩ := hnamed a ha
    obtain ⟨⟨component, hmem, rfl⟩, rfl, houtside⟩ :=
      hwhole a.front lead tag name _ hstands ⟨a.component, hcomponent, htag⟩ hname
    exact ⟨component, hmem, lead, hstands, houtside⟩

/-- A tag of a component, with its attribute. -/
def titleSource : Source := ⟨"a.tsx".toList, "<FormattedMessage id=\"title\" />".toList⟩

/-- A tag whose name only starts with that of a component. -/
def listSource : Source := ⟨"a.tsx".toList, "<FormattedMessageList id=\"hero\" />".toList⟩

/-- A record in which one identifier is bound. -/
def boundUsage : FileUsage := (FileUsage.empty ⟨"a.tsx"⟩).bind "t" "home"

/-- In a text with one tag, that one is meant. -/
theorem StandsInTag.of_one_tag {body front lead tag name value : List Char} (hbody : '<' ∉ body)
    (h : StandsInTag ('<' :: body) front lead tag name value) :
    front = [] ∧ tag = body.takeWhile Config.isComponentChar ∧
      ∃ more, body = lead ++ (name ++ '=' :: more) := by
  obtain ⟨written, rest, htext, -, -, htag, -, -⟩ := h
  cases front with
  | nil =>
    obtain ⟨-, rfl⟩ := List.cons.inj htext
    exact ⟨rfl, htag, written ++ rest, rfl⟩
  | cons c front =>
    obtain ⟨-, rfl⟩ := List.cons.inj htext
    simp at hbody

/-- The name before an equals sign is all that comes there of names of attributes. -/
theorem StandsInTag.trimEnd_eq {text front lead tag name value : List Char}
    (h : StandsInTag text front lead tag name value) :
    trimEnd isAttributeChar (lead ++ name) = lead := by
  obtain ⟨-, -, -, -, -, -, hname, hlast⟩ := h
  have hlead : lead.reverse.head?.any isAttributeChar = false := by
    cases lead with
    | nil => rfl
    | cons c lead => rwa [List.head?_reverse, ← List.getLast?_cons_cons]
  rw [trimEnd, List.reverse_append, dropWhile_append_eq (by simpa using hname) hlead,
    List.reverse_reverse]

theorem invalid?_default : Config.default.invalid? = none := by decide +kernel

theorem attributes_are_taken_by_name_ends_title :
    Config.default.invalid? = none ∧
      (componentKeys Config.default.scanRules titleSource boundUsage).keys = ["home.title"] ∧
      HasAttribute titleSource.text [] "FormattedMessage".toList "id".toList "title".toList := by
  obtain ⟨hadd, -, -, hwhole⟩ :=
    attributes_are_taken_by_name_ends Config.default invalid?_default titleSource boundUsage
  have htaken : takenAttributes Config.default.scanRules titleSource.text =
      [⟨"FormattedMessage", [], "title"⟩] := by
    decide +kernel
  rw [htaken] at hadd hwhole
  refine ⟨invalid?_default, by rw [hadd]; decide, ?_⟩
  have hproper : ∃ component ∈ Config.default.keyComponents,
      HasAttribute titleSource.text [] component.toList "id".toList "title".toList := by
    refine hwhole (fun front lead tag name key hstands _ _ => ?_) _ List.mem_cons_self
    -- the text has one tag, and one equals sign in it
    have htext : titleSource.text = '<' :: "FormattedMessage id=\"title\" />".toList := by decide
    have hlead := hstands.trimEnd_eq
    rw [htext] at hstands
    obtain ⟨-, rfl, more, hmore⟩ := hstands.of_one_tag (by decide)
    have hsplit : "FormattedMessage id=\"title\" />".toList =
        "FormattedMessage id".toList ++ '=' :: "\"title\" />".toList := by decide
    rw [hsplit, ← List.append_assoc,
      List.append_cons_inj_of_notMem (by decide) (by decide)] at hmore
    rw [← hmore.1] at hlead
    obtain rfl : lead = "FormattedMessage ".toList := by rw [← hlead]; decide
    have hname : "FormattedMessage ".toList ++ "id".toList =
        "FormattedMessage ".toList ++ name := by
      rw [← hmore.1]
      decide
    exact ⟨⟨"FormattedMessage", by decide, by decide⟩, (List.append_cancel_left hname).symm,
      by unfold IsOutsideValues; decide⟩
  obtain ⟨component, hmem, hstands⟩ := hproper
  obtain rfl : component = "FormattedMessage" := List.mem_singleton.1 hmem
  exact hstands

/-- What is taken may stand in a tag with a longer name. -/
theorem longer_names_are_taken :
    ¬ ∀ (config : Config) (source : Source) (u : FileUsage), config.invalid? = none →
      ∀ key ∈ (componentKeys config.scanRules source u).keys, key ∈ u.keys ∨
        ∃ component ∈ config.keyComponents, ∃ front lead nspace value,
          StandsInTag source.text front lead component.toList "id".toList value.toList ∧
            key = fullKey nspace value := by
  intro h
  have hkeys : (componentKeys Config.default.scanRules listSource boundUsage).keys =
      ["home.hero"] := by
    decide +kernel
  have hkey := h Config.default listSource boundUsage invalid?_default "home.hero"
    (hkeys ▸ List.mem_cons_self)
  obtain hold | ⟨component, hmem, front, lead, nspace, value, hstands, -⟩ := hkey
  · exact absurd hold (by decide)
  · have htext : listSource.text = '<' :: "FormattedMessageList id=\"hero\" />".toList := by
      decide
    rw [htext] at hstands
    obtain ⟨-, htag, -⟩ := hstands.of_one_tag (by decide)
    obtain rfl : component = "FormattedMessage" := List.mem_singleton.1 hmem
    exact absurd htag (by decide)

end Scan

end CatalogAudit
