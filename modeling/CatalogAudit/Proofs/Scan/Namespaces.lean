/-
  CatalogAudit.Proofs.Scan.Namespaces — what is found in a file lies in a namespace that was
  found there too.

  `Rooted` says so of all that is known of a file. Each way to add to it keeps it, so every
  pass does (`rooted_finder`), and so it holds of every file that is scanned
  (`rooted_scanText`, `scanText_record`). All files together have the keys and namespaces that
  one of them has (`mem_ofFiles`), so every key of theirs lies in a namespace of theirs
  (`exists_namespace_of_mem_keys`).
-/

import CatalogAudit.Scan.Pass

namespace CatalogAudit

open Source

/-- Whether a text is that of a key in a namespace of the file. -/
def FileUsage.Locates (u : FileUsage) (text : String) : Prop :=
  ∃ nspace ∈ u.namespaces, ∃ rest, text = fullKey nspace rest

/-- What is known of a file lies in namespaces that are listed, each once. -/
structure FileUsage.Rooted (u : FileUsage) : Prop where
  nodup : u.namespaces.Nodup
  bindings : ∀ p ∈ u.bindings.entries, p.2 ∈ u.namespaces
  keys : ∀ key ∈ u.keys, u.Locates key
  notes : ∀ note ∈ u.notes, note.kind ≠ .unresolved → u.Locates note.expression

theorem fullKey_fullKey (nspace key leaf : String) :
    fullKey (fullKey nspace key) leaf = fullKey nspace (fullKey key leaf) := by
  simp [fullKey, String.append_assoc]

namespace FileUsage

variable {u : FileUsage}

/-! ## Steps -/

theorem rooted_empty (file : Path) : (empty file).Rooted where
  nodup := .nil
  bindings _ h := absurd h List.not_mem_nil
  keys _ h := absurd h List.not_mem_nil
  notes _ h := absurd h List.not_mem_nil

theorem mem_addNamespace {nspace name : String} :
    name ∈ (u.addNamespace nspace).namespaces ↔ name ∈ u.namespaces ∨ name = nspace := by
  unfold addNamespace
  split
  · next h => exact ⟨.inl, fun hm => hm.elim id (· ▸ h)⟩
  · simp

theorem Locates.addNamespace {text : String} (h : u.Locates text) (nspace : String) :
    (u.addNamespace nspace).Locates text := by
  obtain ⟨name, hn, hr⟩ := h
  exact ⟨name, mem_addNamespace.2 (.inl hn), hr⟩

theorem bindings_addNamespace (u : FileUsage) (nspace : String) :
    (u.addNamespace nspace).bindings = u.bindings := by
  unfold addNamespace; split <;> rfl

theorem keys_addNamespace (u : FileUsage) (nspace : String) :
    (u.addNamespace nspace).keys = u.keys := by
  unfold addNamespace; split <;> rfl

theorem notes_addNamespace (u : FileUsage) (nspace : String) :
    (u.addNamespace nspace).notes = u.notes := by
  unfold addNamespace; split <;> rfl

theorem Rooted.addNamespace (h : u.Rooted) (nspace : String) : (u.addNamespace nspace).Rooted := by
  have hb := bindings_addNamespace u nspace
  have hk := keys_addNamespace u nspace
  have hn := notes_addNamespace u nspace
  refine ⟨?_, fun p hp => ?_, fun key hkey => ?_, fun note hnote hkind => ?_⟩
  · unfold FileUsage.addNamespace
    split
    · exact h.nodup
    · next hm =>
      refine List.nodup_append.2 ⟨h.nodup, by simp, fun x hx y hy e => hm ?_⟩
      rw [List.mem_singleton.1 hy] at e
      exact e ▸ hx
  · exact mem_addNamespace.2 (.inl (h.bindings p (hb ▸ hp)))
  · exact (h.keys key (hk ▸ hkey)).addNamespace nspace
  · exact (h.notes note (hn ▸ hnote) hkind).addNamespace nspace

theorem Rooted.bind (h : u.Rooted) {nspace : String} (hn : nspace ∈ u.namespaces)
    (identifier : String) : (u.bind identifier nspace).Rooted := by
  refine ⟨h.nodup, fun p hp => ?_, h.keys, h.notes⟩
  rcases Assoc.mem_put hp with rfl | hp
  · exact hn
  · exact h.bindings p hp

theorem Rooted.addKeys (h : u.Rooted) {keys : List String} (hk : ∀ key ∈ keys, u.Locates key) :
    (u.addKeys keys).Rooted := by
  refine ⟨h.nodup, h.bindings, fun key hm => ?_, h.notes⟩
  rcases List.mem_append.1 hm with hm | hm
  · exact h.keys key hm
  · exact hk key hm

theorem Rooted.addKey (h : u.Rooted) {key : String} (hk : u.Locates key) :
    (u.addKey key).Rooted := by
  show (u.addKeys [key]).Rooted
  refine h.addKeys fun name hm => ?_
  rw [List.mem_singleton.1 hm]
  exact hk

theorem Rooted.addNote (h : u.Rooted) {kind : NoteKind} {expression : String}
    (hk : kind ≠ .unresolved → u.Locates expression) : (u.addNote kind expression).Rooted := by
  refine ⟨h.nodup, h.bindings, h.keys, fun note hm hkind => ?_⟩
  rcases List.mem_append.1 hm with hm | hm
  · exact h.notes note hm hkind
  · rw [List.mem_singleton.1 hm] at hkind ⊢
    exact hk hkind

theorem locates_fullKey {nspace : String} (hn : nspace ∈ u.namespaces) (key : String) :
    u.Locates (fullKey nspace key) := ⟨nspace, hn, key, rfl⟩

theorem Rooted.mem_of_namespaceOf? (h : u.Rooted) {identifier nspace : String}
    (hb : u.bindings.namespaceOf? identifier = some nspace) : nspace ∈ u.namespaces := by
  obtain ⟨p, hp, rfl⟩ := Option.map_eq_some_iff.1 hb
  exact h.bindings p (List.mem_of_find?_eq_some hp)

theorem Rooted.mem_of_firstNamespace? (h : u.Rooted) {nspace : String}
    (hb : u.bindings.firstNamespace? = some nspace) : nspace ∈ u.namespaces := by
  obtain ⟨p, hp, rfl⟩ := Option.map_eq_some_iff.1 hb
  exact h.bindings p (List.mem_of_head? hp)

end FileUsage

/-! ## Matches -/

/-- What every match keeps, all matches of a shape keep. -/
theorem eachMatch_invariant {P : FileUsage → Prop} {shape : Text.Pattern} {text : List Char}
    {f : FileUsage → List Char → List String → FileUsage}
    (hf : ∀ u before fields, P u → P (f u before fields)) {u : FileUsage} (hu : P u) :
    P (eachMatch shape text f u) := by
  unfold eachMatch
  generalize shape.findAll text = found
  induction found generalizing u with
  | nil => exact hu
  | cons m found ih => exact ih (hf u m.before _ hu)

namespace Scan

open FileUsage

variable {u : FileUsage}

theorem rooted_addCall (h : u.Rooted) (receiver : List Char → Option String)
    (before : List Char) (fields : List String) :
    (addCall receiver u before fields).Rooted := by
  unfold addCall
  split
  · next nspace _ =>
    have hn := h.addNamespace nspace
    dsimp only
    split
    · exact hn.bind (mem_addNamespace.2 (.inr rfl)) _
    · exact hn
  · exact h

theorem rooted_addLiteral (h : u.Rooted) (fields : List String) :
    (addLiteral u fields).Rooted := by
  unfold addLiteral
  split
  · split
    · split
      · next hb => exact h.addKey (locates_fullKey (h.mem_of_namespaceOf? hb) _)
      · exact h
    · exact h
  · exact h

/-- The table of dynamic keys adds to a key, so it stays in its namespace. -/
theorem locates_leavesBelow (rules : ScanRules) {key : String}
    (h : u.Locates key ∨ key ∈ u.namespaces) : ∀ leaf ∈ leavesBelow rules key, u.Locates leaf := by
  intro leaf hl
  obtain ⟨name, -, rfl⟩ := List.mem_map.1 hl
  rcases h with ⟨nspace, hn, rest, rfl⟩ | hn
  · exact ⟨nspace, hn, fullKey rest name, fullKey_fullKey nspace rest name⟩
  · exact locates_fullKey hn name

theorem rooted_addOpenTemplate (h : u.Rooted) (rules : ScanRules) {nspace : String}
    (hn : nspace ∈ u.namespaces) (template : String) :
    (addOpenTemplate rules u nspace template).Rooted := by
  unfold addOpenTemplate
  dsimp only
  split
  · exact (h.addKeys (locates_leavesBelow rules (.inr hn))).addNote
      fun _ => locates_fullKey hn template
  · exact h.addNote fun hk => absurd rfl hk

/-- The keys that a template names before its first inserted value. -/
theorem rooted_addSegments (h : u.Rooted) {nspace : String} (hn : nspace ∈ u.namespaces)
    (first : String) (more : List String) :
    let known := if more.isEmpty then u.addKey (fullKey nspace first)
      else (u.addKey (fullKey nspace first)).addKey
        (fullKey nspace (Text.joined "." (first :: more)))
    known.Rooted ∧ nspace ∈ known.namespaces := by
  have hfirst := h.addKey (locates_fullKey hn first)
  dsimp only
  split
  · exact ⟨hfirst, hn⟩
  · exact ⟨hfirst.addKey (locates_fullKey hn _), hn⟩

theorem rooted_addStaticTemplate (h : u.Rooted) (rules : ScanRules) {nspace : String}
    (hn : nspace ∈ u.namespaces) (template first : String) (more : List String) :
    (addStaticTemplate rules u nspace template first more).Rooted := by
  obtain ⟨hknown, hn⟩ := rooted_addSegments h hn first more
  unfold addStaticTemplate
  dsimp only
  split
  · refine (hknown.addKeys fun leaf hl => ?_).addNote fun _ => locates_fullKey hn template
    rcases List.mem_append.1 hl with hl | hl
    · exact locates_leavesBelow rules (.inr hn) leaf hl
    · exact locates_leavesBelow rules (.inl (locates_fullKey hn _)) leaf hl
  · exact hknown

theorem rooted_addTemplate (h : u.Rooted) (rules : ScanRules) (fields : List String) :
    (addTemplate rules u fields).Rooted := by
  unfold addTemplate
  split
  · split
    · exact h
    · next hb =>
      have hn := h.mem_of_namespaceOf? hb
      dsimp only
      split
      · split
        · exact rooted_addStaticTemplate h rules hn _ _ _
        · exact h
      · split
        · exact rooted_addOpenTemplate h rules hn _
        · exact h
  · exact h

theorem rooted_addProperty (h : u.Rooted) (traced : Assoc String String) (hints : List Hint)
    (fields : List String) : (addProperty traced hints u fields).Rooted := by
  unfold addProperty
  split
  · split
    · exact h
    · next hb =>
      have hn := h.mem_of_namespaceOf? hb
      dsimp only
      split
      · exact (h.addKey (locates_fullKey hn _)).addNote fun _ => locates_fullKey hn _
      · split
        · exact h.addNote fun hk => absurd rfl hk
        · refine (h.addKeys fun key hk => ?_).addNote fun _ => locates_fullKey hn _
          obtain ⟨hint, -, hk⟩ := List.mem_flatMap.1 hk
          obtain ⟨name, -, rfl⟩ := List.mem_map.1 hk
          exact locates_fullKey hn name
  · exact h

theorem rooted_addAttribute (h : u.Rooted) (rules : ScanRules) (path : List Char)
    (component : String) (fields : List String) :
    (addAttribute rules path component u fields).Rooted := by
  unfold addAttribute
  split
  · split
    · split
      · next hb => exact h.addKey (locates_fullKey (h.mem_of_firstNamespace? hb) _)
      · split
        · next nspace _ =>
          exact (h.addNamespace nspace).addKey (locates_fullKey (mem_addNamespace.2 (.inr rfl)) _)
        · exact h.addNote fun hk => absurd rfl hk
    · exact h
  · exact h

/-! ## Files -/

/-- What each attribute keeps, the attributes of all components keep. -/
theorem componentKeys_invariant {P : FileUsage → Prop} (rules : ScanRules) {source : Source}
    (hP : ∀ u component fields, P u → P (addAttribute rules source.path component u fields))
    (hu : P u) : P (componentKeys rules source u) := by
  unfold componentKeys
  generalize rules.components = components
  induction components generalizing u with
  | nil => exact hu
  | cons component components ih =>
    exact ih (eachMatch_invariant (fun u _ fields => hP u component fields) hu)

theorem rooted_componentKeys (h : u.Rooted) (rules : ScanRules) (source : Source) :
    (componentKeys rules source u).Rooted :=
  componentKeys_invariant rules
    (fun _ component fields hv => rooted_addAttribute hv rules source.path component fields) h

/-- Every pass keeps what is known of a file in namespaces that were found. -/
theorem rooted_finder (h : u.Rooted) (rules : ScanRules) (source : Source) (pass : Pass) :
    (pass.finder rules source u).Rooted := by
  cases pass with
  | namespaceCall =>
    exact eachMatch_invariant (P := FileUsage.Rooted)
      (fun _ before fields hv => rooted_addCall hv receiver? before fields) h
  | hookCall =>
    exact eachMatch_invariant (P := FileUsage.Rooted)
      (fun _ before fields hv => rooted_addCall hv inlineReceiver? before fields) h
  | literalKey =>
    exact eachMatch_invariant (P := FileUsage.Rooted)
      (fun _ _ fields hv => rooted_addLiteral hv fields) h
  | templateKey =>
    exact eachMatch_invariant (P := FileUsage.Rooted)
      (fun _ _ fields hv => rooted_addTemplate hv rules fields) h
  | propertyKey =>
    exact eachMatch_invariant (P := FileUsage.Rooted)
      (fun _ _ fields hv => rooted_addProperty hv _ _ fields) h
  | componentKey => exact rooted_componentKeys h rules source

theorem rooted_scanText (rules : ScanRules) (file : Path) (text : String) :
    (scanText rules file text).Rooted := by
  unfold scanText
  generalize Pass.all = passes
  have h := rooted_empty file
  generalize FileUsage.empty file = u at h ⊢
  induction passes generalizing u with
  | nil => exact h
  | cons pass passes ih => exact ih _ (rooted_finder h rules _ pass)

/-- Whatever the text, the record of a file lists each namespace and each identifier once, and
what it binds, uses and notes lies in namespaces that it lists; only of an expression that is
left unresolved nothing is said. -/
theorem scanText_record (rules : ScanRules) (file : Path) (text : String) :
    let u := scanText rules file text
    u.namespaces.Nodup ∧ u.bindings.entries.names.Nodup ∧
      (∀ p ∈ u.bindings.entries, p.2 ∈ u.namespaces) ∧
      (∀ key ∈ u.keys, ∃ nspace ∈ u.namespaces, ∃ rest, key = nspace ++ "." ++ rest) ∧
      ∀ note ∈ u.notes, note.kind ∈ [NoteKind.template, .resolved, .fallback] →
        ∃ nspace ∈ u.namespaces, ∃ rest, note.expression = nspace ++ "." ++ rest := by
  have h := rooted_scanText rules file text
  refine ⟨h.nodup, Bindings.nodup _, h.bindings, h.keys, fun note hnote hkind => ?_⟩
  refine h.notes note hnote fun hunresolved => ?_
  rw [hunresolved] at hkind
  exact absurd hkind (by decide)

end Scan

/-! ## All files -/

namespace Usage

theorem mem_ofFiles {files : List FileUsage} {x : String} :
    (x ∈ (ofFiles files).namespaces ↔ ∃ file ∈ files, x ∈ file.namespaces) ∧
      (x ∈ (ofFiles files).keys ↔ ∃ file ∈ files, x ∈ file.keys) := by
  have hfold : ∀ u : Usage,
      (x ∈ (files.foldl addFile u).namespaces ↔
        x ∈ u.namespaces ∨ ∃ file ∈ files, x ∈ file.namespaces) ∧
      (x ∈ (files.foldl addFile u).keys ↔ x ∈ u.keys ∨ ∃ file ∈ files, x ∈ file.keys) := by
    induction files with
    | nil => simp
    | cons file files ih =>
      intro u
      rw [List.foldl_cons, (ih _).1, (ih _).2, mem_namespaces_addFile, mem_keys_addFile]
      simp [or_assoc]
  obtain ⟨hn, hk⟩ := hfold empty
  exact ⟨hn.trans (or_iff_right NameSet.not_mem_empty),
    hk.trans (or_iff_right NameSet.not_mem_empty)⟩

/-- Every key that the files use lies in a namespace that they use. -/
theorem exists_namespace_of_mem_keys {files : List FileUsage} (h : ∀ file ∈ files, file.Rooted)
    {key : String} (hk : key ∈ (ofFiles files).keys) :
    ∃ nspace ∈ (ofFiles files).namespaces, ∃ rest, key = Source.fullKey nspace rest := by
  obtain ⟨file, hf, hk⟩ := mem_ofFiles.2.1 hk
  obtain ⟨nspace, hn, hr⟩ := (h file hf).keys key hk
  exact ⟨nspace, mem_ofFiles.1.2 ⟨file, hf, hn⟩, hr⟩

end Usage

end CatalogAudit
