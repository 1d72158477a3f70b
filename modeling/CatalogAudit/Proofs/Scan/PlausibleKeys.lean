/-
  CatalogAudit.Proofs.Scan.PlausibleKeys — whether a path may be found for a key.

  A pass takes a text for a key when it is not empty and no path (`IsPlain`), with one
  exception: the `key` field of an object literal is taken for what it is (`Traced`). So every
  key that is found is a listed namespace and a plain text, or else a traced key
  (`FileUsage.Sound`). Each pass that finds keys keeps it so (`sound_literalKeys` and those
  after it). A traced key is found whatever it looks like, so that a path may be found, too
  (`keys_are_plain_or_traced`, `path_may_be_found`).
-/

import CatalogAudit.Proofs.Scan.Namespaces
import CatalogAudit.Proofs.Scan.PropertyKeys
import CatalogAudit.Proofs.Scan.TracedKeys

namespace CatalogAudit

open Text Source

/-! ## Plain texts -/

/-- A text that is not empty and no path. -/
def IsPlain (s : String) : Prop := s ≠ "" ∧ '/' ∉ s.toList

theorem isPlain_of_isPlausibleKey {s : String} (h : isPlausibleKey s.toList = true) :
    IsPlain s := by
  obtain ⟨hne, hpath⟩ := Scan.isPlausibleKey_iff.1 h
  exact ⟨mt String.toList_eq_nil_iff.2 hne, hpath⟩

theorem IsPlain.fullKey {s t : String} (hs : IsPlain s) (ht : IsPlain t) :
    IsPlain (fullKey s t) := by
  have hpath : '/' ∉ (Source.fullKey s t).toList := by
    simpa [Source.fullKey] using ⟨hs.2, ht.2⟩
  exact ⟨fun h => by simpa [Source.fullKey] using congrArg String.toList h, hpath⟩

theorem isPlain_joined {first : String} {more : List String} (h : ∀ s ∈ first :: more, IsPlain s) :
    IsPlain (joined "." (first :: more)) := by
  induction more generalizing first with
  | nil => simpa [joined, join] using h
  | cons next more ih =>
    obtain ⟨hfirst, hmore⟩ := List.forall_mem_cons.1 h
    rw [joined_cons_cons]
    exact hfirst.fullKey (ih hmore)

/-- The rules give no paths: neither the table of dynamic keys nor the hints do. -/
structure ScanRules.GivePlain (rules : ScanRules) : Prop where
  leaves : ∀ entry ∈ rules.dynamicKeys, ∀ leaf ∈ entry.2, IsPlain leaf
  hints : ∀ hint ∈ rules.hints, ∀ key ∈ hint.keys, IsPlain key

theorem ScanRules.GivePlain.of_empty {rules : ScanRules} (hleaves : rules.dynamicKeys = [])
    (hhints : rules.hints = []) : rules.GivePlain := by
  constructor
  · simp [hleaves]
  · simp [hhints]

namespace Scan

open Shape

/-! ## Plain and traced keys -/

/-- The key is traced for a property that is looked up through an identifier of the namespace. -/
def Traced (text : List Char) (b : Bindings) (nspace key : String) : Prop :=
  ∃ c ∈ propertyCalls text, b.namespaceOf? c.identifier = some nspace ∧
    tracedKey? text c.argument.owner = some key

theorem Traced.ne_empty {text : List Char} {b : Bindings} {nspace key : String}
    (h : Traced text b nspace key) : key ≠ "" := by
  obtain ⟨c, -, -, hkey⟩ := h
  obtain ⟨front, rest, -, hm⟩ := mem_tracedKeys.1 (Assoc.mem_of_value? hkey)
  exact (assignsAfter_of_match? hm).1

end Scan

namespace FileUsage

open Scan

/-- A key in a listed namespace, plain or traced. -/
def Accounts (u : FileUsage) (text : List Char) (key : String) : Prop :=
  ∃ nspace ∈ u.namespaces, ∃ suffix, key = fullKey nspace suffix ∧ suffix ≠ "" ∧
    ('/' ∉ suffix.toList ∨ Traced text u.bindings nspace suffix)

/-- All keys that are found are accounted for. -/
def Sound (u : FileUsage) (text : List Char) : Prop := ∀ key ∈ u.keys, u.Accounts text key

variable {u : FileUsage} {text : List Char} {nspace : String}

theorem accounts_plain (hn : nspace ∈ u.namespaces) {suffix : String} (h : IsPlain suffix) :
    u.Accounts text (fullKey nspace suffix) := ⟨nspace, hn, suffix, rfl, h.1, .inl h.2⟩

theorem accounts_traced (hn : nspace ∈ u.namespaces) {key : String}
    (h : Traced text u.bindings nspace key) : u.Accounts text (fullKey nspace key) :=
  ⟨nspace, hn, key, rfl, h.ne_empty, .inr h⟩

theorem Sound.addKeys (h : u.Sound text) {keys : List String}
    (hk : ∀ key ∈ keys, u.Accounts text key) : (u.addKeys keys).Sound text := fun key hm =>
  (List.mem_append.1 hm).elim (h key) (hk key)

theorem Sound.addKey (h : u.Sound text) {key : String} (hk : u.Accounts text key) :
    (u.addKey key).Sound text := by
  show (u.addKeys [key]).Sound text
  exact h.addKeys fun _ hm => List.mem_singleton.1 hm ▸ hk

theorem Sound.addNamespace (h : u.Sound text) (nspace : String) :
    (u.addNamespace nspace).Sound text := by
  intro key hm
  rw [keys_addNamespace] at hm
  obtain ⟨name, hn, suffix, hkey, hne, hsuffix⟩ := h key hm
  exact ⟨name, mem_addNamespace.2 (.inl hn), suffix, hkey, hne, by
    rwa [bindings_addNamespace]⟩

end FileUsage

namespace Scan

open FileUsage

variable {u : FileUsage} {rules : ScanRules} {source : Source}

/-! ## Steps -/

theorem sound_addLiteral {text : List Char} (h : u.Sound text) (hr : u.Rooted)
    (fields : List String) : (addLiteral u fields).Sound text := by
  unfold addLiteral
  split
  · split
    · next hkey =>
      split
      · next hb =>
        exact h.addKey (accounts_plain (hr.mem_of_namespaceOf? hb) (isPlain_of_isPlausibleKey hkey))
      · exact h
    · exact h
  · exact h

/-- The table of dynamic keys adds a plain leaf to a key. -/
theorem exists_of_mem_leavesBelow (hrules : rules.GivePlain) {key leafKey : String}
    (h : leafKey ∈ leavesBelow rules key) : ∃ leaf, IsPlain leaf ∧ leafKey = fullKey key leaf := by
  obtain ⟨leaf, hleaf, rfl⟩ := List.mem_map.1 h
  refine ⟨leaf, ?_, rfl⟩
  cases hvalue : rules.dynamicKeys.value? key with
  | none => simp [hvalue] at hleaf
  | some leaves =>
    rw [hvalue, Option.getD_some] at hleaf
    exact hrules.leaves _ (Assoc.mem_of_value? hvalue) leaf hleaf

theorem accounts_leavesBelow (hrules : rules.GivePlain) {text : List Char} {nspace : String}
    (hn : nspace ∈ u.namespaces) : ∀ key ∈ leavesBelow rules nspace, u.Accounts text key := by
  intro key h
  obtain ⟨leaf, hleaf, rfl⟩ := exists_of_mem_leavesBelow hrules h
  exact accounts_plain hn hleaf

theorem sound_addOpenTemplate {text : List Char} (h : u.Sound text) (hrules : rules.GivePlain)
    {nspace : String} (hn : nspace ∈ u.namespaces) (template : String) :
    (addOpenTemplate rules u nspace template).Sound text := by
  unfold addOpenTemplate
  dsimp only
  split
  · exact h.addKeys (accounts_leavesBelow hrules hn)
  · exact h

/-- The keys that a template names before its first inserted value. -/
theorem sound_addSegments {text : List Char} (h : u.Sound text) {nspace : String}
    (hn : nspace ∈ u.namespaces) {first : String} {more : List String}
    (hplain : ∀ s ∈ first :: more, IsPlain s) :
    let known := if more.isEmpty then u.addKey (fullKey nspace first)
      else (u.addKey (fullKey nspace first)).addKey (fullKey nspace (joined "." (first :: more)))
    known.Sound text ∧ nspace ∈ known.namespaces := by
  have hfirst : (u.addKey (fullKey nspace first)).Sound text :=
    h.addKey (accounts_plain hn (hplain first List.mem_cons_self))
  dsimp only
  split
  · exact ⟨hfirst, hn⟩
  · exact ⟨hfirst.addKey (accounts_plain hn (isPlain_joined hplain)), hn⟩

theorem sound_addStaticTemplate {text : List Char} (h : u.Sound text) (hrules : rules.GivePlain)
    {nspace : String} (hn : nspace ∈ u.namespaces) (template : String) {first : String}
    {more : List String} (hplain : ∀ s ∈ first :: more, IsPlain s) :
    (addStaticTemplate rules u nspace template first more).Sound text := by
  obtain ⟨hknown, hn⟩ := sound_addSegments h hn hplain
  unfold addStaticTemplate
  dsimp only
  split
  · refine hknown.addKeys fun key hkey => ?_
    rcases List.mem_append.1 hkey with hkey | hkey
    · exact accounts_leavesBelow hrules hn key hkey
    · obtain ⟨leaf, hleaf, rfl⟩ := exists_of_mem_leavesBelow hrules hkey
      rw [fullKey_fullKey]
      exact accounts_plain hn ((isPlain_joined hplain).fullKey hleaf)
  · exact hknown

/-- The segments of a text that is no path are plain. -/
theorem isPlain_of_mem_segments {fixed : List Char} (hfixed : '/' ∉ fixed) :
    ∀ s ∈ ((splitOn '.' fixed).filter (!·.isEmpty)).map String.ofList, IsPlain s := by
  intro s hs
  obtain ⟨piece, hpiece, rfl⟩ := List.mem_map.1 hs
  obtain ⟨hpiece, hne⟩ := List.mem_filter.1 hpiece
  have hpath : '/' ∉ piece := fun h => hfixed ((infix_of_mem_splitOn hpiece).subset h)
  exact ⟨by simpa using hne, by simpa using hpath⟩

theorem sound_addTemplate {text : List Char} (h : u.Sound text) (hr : u.Rooted)
    (hrules : rules.GivePlain) (fields : List String) :
    (addTemplate rules u fields).Sound text := by
  unfold addTemplate
  split
  · split
    · exact h
    · next hb =>
      have hn := hr.mem_of_namespaceOf? hb
      dsimp only
      split
      · next hfixed =>
        split
        · next hsegments =>
          have hplain := isPlain_of_mem_segments (isPlausibleKey_iff.1 hfixed).2
          rw [hsegments] at hplain
          exact sound_addStaticTemplate h hrules hn _ hplain
        · exact h
      · split
        · exact sound_addOpenTemplate h hrules hn _
        · exact h
  · exact h

theorem sound_addAttribute {text : List Char} (h : u.Sound text) (hr : u.Rooted)
    (path : List Char) (component : String) (fields : List String) :
    (addAttribute rules path component u fields).Sound text := by
  unfold addAttribute
  split
  · split
    · next hkey =>
      have hplain := isPlain_of_isPlausibleKey hkey
      split
      · next hb => exact h.addKey (accounts_plain (hr.mem_of_firstNamespace? hb) hplain)
      · split
        · next nspace _ =>
          exact (h.addNamespace nspace).addKey
            (accounts_plain (mem_addNamespace.2 (.inr rfl)) hplain)
        · exact h
    · exact h
  · exact h

/-- The keys that a call with a property comes to are plain, or traced. -/
theorem Outcome.plain_or_traced (hrules : rules.GivePlain) {text : List Char} {nspace : String}
    {p : Property} {f : Finding} (h : Outcome rules.hints text nspace p f) {key : String}
    (hkey : key ∈ f.keys) :
    ∃ suffix, key = fullKey nspace suffix ∧
      (IsPlain suffix ∨ tracedKey? text p.owner = some suffix) := by
  cases h with
  | resolved htraced => exact ⟨_, List.mem_singleton.1 hkey, .inr htraced⟩
  | fallback =>
    obtain ⟨hint, hhint, hkey⟩ := List.mem_flatMap.1 hkey
    obtain ⟨name, hname, rfl⟩ := List.mem_map.1 hkey
    exact ⟨name, rfl, .inl (hrules.hints hint (List.mem_of_mem_filter hhint) name hname)⟩
  | unresolved => cases hkey

theorem Outcome.keys_of_traced {hints : List Hint} {text : List Char} {nspace key : String}
    {p : Property} {f : Finding} (h : Outcome hints text nspace p f)
    (hkey : tracedKey? text p.owner = some key) : f.keys = [fullKey nspace key] := by
  cases h with
  | resolved htraced => rw [Option.some.inj (htraced.symm.trans hkey)]
  | fallback hnone => simp [hkey] at hnone
  | unresolved hnone => simp [hkey] at hnone

/-! ## Passes -/

section
variable (h : u.Sound source.text) (hr : u.Rooted)
include h hr

theorem sound_literalKeys : (literalKeys source u).Sound source.text :=
  (eachMatch_invariant (P := fun u => u.Rooted ∧ u.Sound source.text)
    (fun _ _ fields hv => ⟨rooted_addLiteral hv.1 fields, sound_addLiteral hv.2 hv.1 fields⟩)
    ⟨hr, h⟩).2

variable (hrules : rules.GivePlain)
include hrules

theorem sound_templateKeys : (templateKeys rules source u).Sound source.text :=
  (eachMatch_invariant (P := fun u => u.Rooted ∧ u.Sound source.text)
    (fun _ _ fields hv =>
      ⟨rooted_addTemplate hv.1 rules fields, sound_addTemplate hv.2 hv.1 hrules fields⟩)
    ⟨hr, h⟩).2

/-- Here the traced keys come in: they are taken as they are. -/
theorem sound_propertyKeys : (propertyKeys rules source u).Sound source.text := by
  rw [propertyKeys_eq_add]
  intro key hkey
  rcases List.mem_append.1 hkey with hkey | hkey
  · exact h key hkey
  · obtain ⟨finding, hfinding, hkey⟩ := List.mem_flatMap.1 hkey
    obtain ⟨c, hc, rfl⟩ := List.mem_map.1 hfinding
    cases hb : u.bindings.namespaceOf? c.identifier with
    | none => simp [propertyFinding_unbound hb] at hkey
    | some nspace =>
      have hn : nspace ∈ u.namespaces := hr.mem_of_namespaceOf? hb
      obtain ⟨suffix, rfl, hplain | htraced⟩ :=
        (outcome_propertyFinding rules source.text hb).plain_or_traced hrules hkey
      · exact accounts_plain hn hplain
      · exact accounts_traced hn ⟨c, hc, hb, htraced⟩

end

theorem sound_componentKeys (h : u.Sound source.text) (hr : u.Rooted) :
    (componentKeys rules source u).Sound source.text :=
  (componentKeys_invariant (P := fun u => u.Rooted ∧ u.Sound source.text) rules
    (fun _ component fields hv => ⟨rooted_addAttribute hv.1 rules source.path component fields,
      sound_addAttribute hv.2 hv.1 source.path component fields⟩) ⟨hr, h⟩).2

/-- A traced key is found, whatever it looks like. -/
theorem mem_keys_of_traced {nspace key : String} (h : Traced source.text u.bindings nspace key) :
    fullKey nspace key ∈ (propertyKeys rules source u).keys := by
  obtain ⟨c, hc, hb, htraced⟩ := h
  have hfound : fullKey nspace key ∈ (propertyFinding rules source.text u.bindings c).keys := by
    have houtcome := outcome_propertyFinding rules source.text hb
    rw [houtcome.keys_of_traced htraced]
    exact List.mem_singleton_self _
  rw [propertyKeys_eq_add]
  exact List.mem_append_right _ (List.mem_flatMap.2 ⟨_, List.mem_map_of_mem hc, hfound⟩)

/-- The pass over components binds nothing and takes no key away. -/
theorem componentKeys_frame (rules : ScanRules) (source : Source) (u : FileUsage) :
    (componentKeys rules source u).bindings = u.bindings ∧
      u.keys ⊆ (componentKeys rules source u).keys := by
  refine componentKeys_invariant (P := fun v => v.bindings = u.bindings ∧ u.keys ⊆ v.keys) rules
    (fun v component fields hv => ?_) ⟨rfl, List.Subset.refl _⟩
  have hgrows (key : String) : u.keys ⊆ v.keys ++ [key] :=
    List.Subset.trans hv.2 (List.subset_append_left _ _)
  unfold addAttribute
  split
  · split
    · split
      · exact ⟨hv.1, hgrows _⟩
      · split
        · refine ⟨(bindings_addNamespace v _).trans hv.1, ?_⟩
          simp only [FileUsage.addKey, keys_addNamespace]
          exact hgrows _
        · exact hv
    · exact hv
  · exact hv

/-! ## Files -/

/-- The passes that bind identifiers find no keys. -/
theorem keys_addCall (receiver : List Char → Option String) (u : FileUsage) (before : List Char)
    (fields : List String) : (addCall receiver u before fields).keys = u.keys := by
  unfold addCall
  split
  · dsimp only
    split <;> exact keys_addNamespace u _
  · rfl

theorem keys_hookCalls_namespaceCalls (source : Source) (file : Path) :
    (hookCalls source (namespaceCalls source (FileUsage.empty file))).keys = [] := by
  have hstep {receiver : List Char → Option String} (v : FileUsage) (before : List Char)
      (fields : List String) (hv : v.keys = []) : (addCall receiver v before fields).keys = [] :=
    (keys_addCall receiver v before fields).trans hv
  exact eachMatch_invariant (P := (·.keys = [])) hstep
    (eachMatch_invariant (P := (·.keys = [])) hstep rfl)

/-- Where the rules give no paths, every key that is found is a listed namespace and a text that
is not empty; and the text is no path, or else it is a key that is traced. Every traced key is
found. -/
theorem keys_are_plain_or_traced (rules : ScanRules) (hrules : rules.GivePlain) (file : Path)
    (text : String) :
    let u := scanText rules file text
    (∀ key ∈ u.keys, ∃ nspace ∈ u.namespaces, ∃ suffix, key = fullKey nspace suffix ∧
      suffix ≠ "" ∧ ('/' ∉ suffix.toList ∨ Traced text.toList u.bindings nspace suffix)) ∧
    ∀ nspace key, Traced text.toList u.bindings nspace key → fullKey nspace key ∈ u.keys := by
  intro u
  let source : Source := ⟨routePath file, text.toList⟩
  -- what the passes that bind identifiers leave, and then each pass that finds keys
  let bound := hookCalls source (namespaceCalls source (FileUsage.empty file))
  let literal := literalKeys source bound
  let template := templateKeys rules source literal
  let property := propertyKeys rules source template
  have hu : u = componentKeys rules source property := rfl
  have hbound : bound.Rooted :=
    rooted_finder (rooted_finder (rooted_empty file) rules source .namespaceCall) rules source
      .hookCall
  have hliteral : literal.Rooted := rooted_finder hbound rules source .literalKey
  have htemplate : template.Rooted := rooted_finder hliteral rules source .templateKey
  have hproperty : property.Rooted := rooted_finder htemplate rules source .propertyKey
  have hsound : bound.Sound text.toList := by
    intro key hkey
    rw [keys_hookCalls_namespaceCalls] at hkey
    cases hkey
  have hsoundLiteral : literal.Sound source.text := sound_literalKeys hsound hbound
  have hsoundTemplate : template.Sound source.text :=
    sound_templateKeys hsoundLiteral hliteral hrules
  have hsoundProperty : property.Sound source.text :=
    sound_propertyKeys hsoundTemplate htemplate hrules
  refine ⟨sound_componentKeys hsoundProperty hproperty, fun nspace key htraced => ?_⟩
  obtain ⟨hbindings, hkeys⟩ := componentKeys_frame rules source property
  have hproperties : property.bindings = template.bindings := by
    show (propertyKeys rules source template).bindings = template.bindings
    rw [propertyKeys_eq_add]
    rfl
  rw [hu, hbindings, hproperties] at htraced
  exact hkeys (mem_keys_of_traced htraced)

/-- The `key` field of the literal holds a path. -/
def aboutText : String :=
  "const t = useTranslations('nav');\nconst item = \x7b key: '/about' \x7d;\nt(item.key);"

theorem scanText_aboutText :
    scanText ⟨[], [], [], ""⟩ ⟨"a.ts"⟩ aboutText =
      { (FileUsage.empty ⟨"a.ts"⟩).bind "t" "nav" with
        namespaces := ["nav"], keys := ["nav./about"],
        notes := [⟨.resolved, "nav.item.key"⟩] } := by
  decide +kernel

theorem keys_are_plain_or_traced_about :
    ScanRules.GivePlain ⟨[], [], [], ""⟩ ∧
      "nav./about" ∈ (scanText ⟨[], [], [], ""⟩ ⟨"a.ts"⟩ aboutText).keys := by
  have hrules : ScanRules.GivePlain ⟨[], [], [], ""⟩ := .of_empty rfl rfl
  let call : Call Property :=
    ⟨"const t = useTranslations('nav');\nconst item = \x7b key: '/about' \x7d;\n".toList, "t",
      ⟨"item", "key"⟩⟩
  have hcall : call ∈ propertyCalls aboutText.toList := by decide +kernel
  have htraced : tracedKey? aboutText.toList "item" = some "/about" := by decide +kernel
  have hbound : (scanText ⟨[], [], [], ""⟩ ⟨"a.ts"⟩ aboutText).bindings.namespaceOf? "t" =
      some "nav" := by
    rw [scanText_aboutText]
    decide
  exact ⟨hrules, (keys_are_plain_or_traced ⟨[], [], [], ""⟩ hrules ⟨"a.ts"⟩ aboutText).2 "nav"
    "/about" ⟨call, hcall, hbound, htraced⟩⟩

/-- A path may be found for a key. -/
theorem path_may_be_found :
    ¬ ∀ (rules : ScanRules) (file : Path) (text : String),
      rules.dynamicKeys = [] → rules.hints = [] →
      ∀ key ∈ (scanText rules file text).keys,
        ∃ nspace ∈ (scanText rules file text).namespaces, ∃ suffix,
          key = fullKey nspace suffix ∧ suffix ≠ "" ∧ '/' ∉ suffix.toList := by
  intro h
  have hkey : ∃ nspace ∈ ["nav"], ∃ suffix,
      "nav./about" = fullKey nspace suffix ∧ suffix ≠ "" ∧ '/' ∉ suffix.toList := by
    have hkeys := h ⟨[], [], [], ""⟩ ⟨"a.ts"⟩ aboutText rfl rfl
    rw [scanText_aboutText] at hkeys
    exact hkeys _ List.mem_cons_self
  obtain ⟨nspace, hn, suffix, hsuffix, -, hpath⟩ := hkey
  obtain rfl := List.mem_singleton.1 hn
  have hslash : '/' ∈ (fullKey "nav" suffix).toList := hsuffix ▸ by decide
  simp [fullKey, hpath] at hslash

end Scan

end CatalogAudit
