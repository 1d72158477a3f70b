/-
  CatalogAudit.Proofs.Config.RoundTrip — a config that is written to a file is loaded from it.

  An object spells a config when it gives each setting once or leaves it out where it is the
  default one, in any order, under its name or the other one that it has, and with the texts of
  any values under other keys (`IsSpelling`). Such a text is read as that config
  (`ofText_of_isSpelling`), since what was written for each setting is what fills it in
  (`fillsFrom_settings`). The text that is written for a config is such a text, which gives all
  its settings in order (`isSpelling_toJson`).
-/

import CatalogAudit.Config.File
import CatalogAudit.Proofs.FileTree.Writing
import CatalogAudit.Proofs.Json.ReadBack
import CatalogAudit.Proofs.Json.Records
import Mathlib.Data.List.Basic

namespace CatalogAudit

open Json

namespace Config

variable {c : Config} {layout : Layout} {outer : Nat}

/-! ## Values -/

theorem spells_field {σ α : Type} {name : String} {value : Step α} {set : σ → α → σ}
    {aliases : List String} {required : Bool} {text : List Char} {v : α} {r r' : σ}
    (h : Spells value text v) (hset : set r v = r') :
    Spells ((field name value set aliases required).read r) text r' where
  starts := h.starts
  reads blank rest hblank hrest := by
    simp [field, h.reads blank rest hblank hrest, hset, bind, Except.bind]

theorem spells_texts (xs : List String) :
    Spells texts (written layout outer (textsJson xs)) xs := by
  rw [textsJson, written, writtenItems_eq, List.map_map]
  exact spells_typedList fun x _ => spells_typedString x

/-- A hint with the fields that are not named left blank. -/
def hintKeeping (h : Hint) (names : List String) : Hint where
  markers := if "markers" ∈ names then h.markers else []
  keys := if "keys" ∈ names then h.keys else []

theorem fillsFrom_hint (h : Hint) (layout : Layout) (outer : Nat) :
    FillsFrom hintShape (hintKeeping h) layout outer
      [("markers", textsJson h.markers), ("keys", textsJson h.keys)] := by
  simp only [FillsFrom, hintShape, List.forall_mem_cons]
  refine ⟨⟨_, rfl, fun given => spells_field (spells_texts _) ?_⟩,
    ⟨_, rfl, fun given => spells_field (spells_texts _) ?_⟩, List.forall_mem_nil _⟩
  all_goals simp [hintKeeping, field]

theorem spells_hint (h : Hint) :
    Spells hintShape.read (written layout outer (hintJson h)) h := by
  have hgiven : ∀ markers keys : List Char,
      hintShape.given [("markers", markers), ("keys", keys)] = ["markers", "keys"] :=
    fun _ _ => rfl
  have hgives : Gives hintShape (hintKeeping h)
      [("markers", written layout (outer + 1) (textsJson h.markers)),
        ("keys", written layout (outer + 1) (textsJson h.keys))] := by
    refine (fillsFrom_hint h layout (outer + 1)).gives (fun e he name hname => ?_)
      (fun e he hname => ?_) (hgiven _ _ ▸ by decide)
    · simp only [List.mem_cons, List.not_mem_nil, or_false] at he
      rcases he with rfl | rfl <;> (cases hname; rfl)
    · simp only [List.mem_cons, List.not_mem_nil, or_false] at he
      rcases he with rfl | rfl <;> cases hname
  rw [hintJson, written, writtenMembers_eq]
  exact spells_record hgives rfl (hgiven _ _ ▸ by decide)

theorem spells_hints (hints : List Hint) :
    Spells (typedList hintShape.read) (written layout outer (.arr (hints.map hintJson))) hints := by
  rw [written, writtenItems_eq, List.map_map]
  exact spells_typedList fun h _ => spells_hint h

theorem spells_dynamicKeys (keys : NameMap (List String)) :
    Spells (typedMap texts)
      (written layout outer (.obj (keys.entries.map fun (key, leaves) => (key, textsJson leaves))))
      keys := by
  let write := fun leaves => written layout (outer + 1) (textsJson leaves)
  have hwritten : (keys.entries.map fun (key, leaves) => (key, textsJson leaves)).map
      (fun m => (m.1, written layout (outer + 1) m.2)) =
        keys.entries.map fun p => (p.1, write p.2) := by
    rw [List.map_map]
    rfl
  rw [written, writtenMembers_eq, hwritten]
  exact spells_typedMap fun p _ => spells_texts p.2

/-! ## Settings -/

/-- A config with the settings that are not named at their defaults. -/
def keeping (c : Config) (names : List String) : Config where
  sourceRoot := if "sourceRoot" ∈ names then c.sourceRoot else default.sourceRoot
  includes := if "includes" ∈ names then c.includes else default.includes
  ignores := if "ignores" ∈ names then c.ignores else default.ignores
  ignoreTestFiles :=
    if "ignoreTestFiles" ∈ names then c.ignoreTestFiles else default.ignoreTestFiles
  messagesRoot := if "messagesRoot" ∈ names then c.messagesRoot else default.messagesRoot
  locales := if "locales" ∈ names then c.locales else default.locales
  defaultLocale := if "defaultLocale" ∈ names then c.defaultLocale else default.defaultLocale
  logDir := if "logDir" ∈ names then c.logDir else default.logDir
  dynamicKeys := if "dynamicKeys" ∈ names then c.dynamicKeys else default.dynamicKeys
  propertyKeyHints :=
    if "propertyKeyHints" ∈ names then c.propertyKeyHints else default.propertyKeyHints
  keyComponents := if "keyComponents" ∈ names then c.keyComponents else default.keyComponents
  localeRouteMarker :=
    if "localeRouteMarker" ∈ names then c.localeRouteMarker else default.localeRouteMarker

def settingNames : List String :=
  ["sourceRoot", "includes", "ignores", "ignoreTestFiles", "messagesRoot", "locales",
    "defaultLocale", "logDir", "dynamicKeys", "propertyKeyHints", "keyComponents",
    "localeRouteMarker"]

/-- The name of the setting that a key gives: it is the key, or has the key as its other one. -/
def settingOf? (key : String) : Option String :=
  if key = "messagesDir" then some "messagesRoot"
  else if key = "primaryLocale" then some "defaultLocale"
  else if key ∈ settingNames then some key
  else none

/-- The reader knows the settings by these names. -/
theorem nameOf?_shape (key : String) : shape.nameOf? key = settingOf? key := by
  by_cases h : key ∈ "messagesDir" :: "primaryLocale" :: settingNames
  · have hnames : ∀ name ∈ "messagesDir" :: "primaryLocale" :: settingNames,
        shape.nameOf? name = settingOf? name := by decide
    exact hnames key h
  · simp only [settingNames, List.mem_cons, List.not_mem_nil, or_false, not_or] at h
    simp [settingOf?, settingNames, Shape.nameOf?, shape, field, Field.answersTo, h, eq_comm]

/-- The settings as they are written. -/
def settings (c : Config) : Members :=
  match c.toJson with
  | .obj ms => ms
  | _ => []

theorem names_settings (c : Config) : c.settings.names = settingNames := rfl

theorem nodup_settings (c : Config) : c.settings.names.Nodup := by
  rw [names_settings]
  decide

theorem settingOf?_of_mem {m : String × Json} (h : m ∈ c.settings) :
    settingOf? m.1 = some m.1 := by
  have hnames : ∀ name ∈ settingNames, settingOf? name = some name := by decide
  have hname : m.1 ∈ c.settings.names := List.mem_map_of_mem h
  exact hnames m.1 (names_settings c ▸ hname)

theorem fillsFrom_settings (c : Config) (layout : Layout) (outer : Nat) :
    FillsFrom shape c.keeping layout outer c.settings := by
  simp only [FillsFrom, shape, List.forall_mem_cons]
  refine ⟨⟨_, rfl, fun given => spells_field (spells_typedString _) ?_⟩,
    ⟨_, rfl, fun given => spells_field (spells_texts _) ?_⟩,
    ⟨_, rfl, fun given => spells_field (spells_texts _) ?_⟩,
    ⟨_, rfl, fun given => spells_field (spells_typedBool _) ?_⟩,
    ⟨_, rfl, fun given => spells_field (spells_typedString _) ?_⟩,
    ⟨_, rfl, fun given => spells_field (spells_texts _) ?_⟩,
    ⟨_, rfl, fun given => spells_field (spells_typedString _) ?_⟩,
    ⟨_, rfl, fun given => spells_field (spells_typedString _) ?_⟩,
    ⟨_, rfl, fun given => spells_field (spells_dynamicKeys _) ?_⟩,
    ⟨_, rfl, fun given => spells_field (spells_hints _) ?_⟩,
    ⟨_, rfl, fun given => spells_field (spells_texts _) ?_⟩,
    ⟨_, rfl, fun given => spells_field (spells_typedString _) ?_⟩, List.forall_mem_nil _⟩
  all_goals simp [keeping, field]

/-! ## Texts of a config -/

/-- The settings that are given, in order. -/
def givenIn (entries : List (String × List Char)) : List String :=
  entries.filterMap fun e => settingOf? e.1

theorem given_shape (entries : List (String × List Char)) :
    shape.given entries = givenIn entries := by
  simp only [Shape.given, givenIn, nameOf?_shape]

/-- Keys with the texts of their values, of which each setting that is not the default one is
given once. -/
structure IsSpelledBy (c : Config) (layout : Layout) (entries : List (String × List Char)) :
    Prop where
  given : ∀ e ∈ entries, ∀ name, settingOf? e.1 = some name →
    (c.settings.value? name).map (written layout 1) = some e.2
  others : ∀ e ∈ entries, settingOf? e.1 = none → IsValueText e.2
  once : (givenIn entries).Nodup
  omitted : c.keeping (givenIn entries) = c

/-- An object that gives the settings of a config. -/
def IsSpelling (c : Config) (text : String) : Prop :=
  ∃ layout entries, c.IsSpelledBy layout entries ∧
    text = String.ofList (bracketed layout 0 '\x7b' '\x7d' (entries.map (entryText layout)))

theorem keeping_reverse (names : List String) : c.keeping names.reverse = c.keeping names := by
  simp only [keeping, List.mem_reverse]

theorem ofText_of_isSpelling {text : String} (h : c.IsSpelling text) : ofText text = .ok c := by
  obtain ⟨layout, entries, h, rfl⟩ := h
  have hgives : Gives shape c.keeping entries := by
    refine (fillsFrom_settings c layout 1).gives ?_ ?_ (given_shape entries ▸ h.once)
    · simpa only [nameOf?_shape] using h.given
    · simpa only [nameOf?_shape] using h.others
  have hrequired : ∀ f ∈ shape.fields, f.required = true → f.name ∈ shape.given entries := by
    have hnone : shape.fields.all (!·.required) = true := by decide
    intro f hf hrequired
    have hf := List.all_eq_true.1 hnone f hf
    rw [hrequired] at hf
    cases hf
  have hspells : Spells shape.read
      (bracketed layout 0 '\x7b' '\x7d' (entries.map (entryText layout)))
      (c.keeping (shape.given entries).reverse) := spells_record hgives rfl hrequired
  rw [keeping_reverse, given_shape, h.omitted] at hspells
  have hends : EndsNumber [] := by simp [EndsNumber]
  have hread := hspells.reads_here hends
  rw [List.append_nil] at hread
  rw [ofText, readWhole, mapError_eq_ok, String.toList_ofList, hread]
  rfl

/-- The text that is written for a config gives all its settings. -/
theorem isSpelling_toJson (c : Config) (layout : Layout) : c.IsSpelling (c.toJson.text layout) := by
  have hnames : givenIn (c.settings.map fun m => (m.1, written layout 1 m.2)) =
      c.settings.names := by
    rw [givenIn, List.filterMap_map]
    exact List.filterMap_eq_map_iff_forall_eq_some.2 fun m hm =>
      settingOf?_of_mem hm
  refine ⟨layout, c.settings.map fun m => (m.1, written layout 1 m.2), ⟨?_, ?_, ?_, ?_⟩, ?_⟩
  · intro e he name hname
    obtain ⟨m, hm, rfl⟩ := List.mem_map.1 he
    rw [settingOf?_of_mem hm, Option.some.injEq] at hname
    rw [← hname, (Assoc.value?_eq_some_iff (nodup_settings c)).2 hm, Option.map_some]
  · intro e he hname
    obtain ⟨m, hm, rfl⟩ := List.mem_map.1 he
    rw [settingOf?_of_mem hm] at hname
    cases hname
  · rw [hnames]
    exact nodup_settings c
  · rw [hnames]
    rfl
  · rw [← writtenMembers_eq]
    rfl

/-! ## Files -/

/-- A valid config is loaded from the file that its text was written to, and from one with any
other text that spells it. -/
theorem written_config_is_loaded (hvalid : c.invalid? = none) :
    c.IsSpelling (c.toJson.text .pretty) ∧
    ∀ text, c.IsSpelling text → ∀ (tree tree' : FileTree) (dir : Path),
      tree.writeText (dir.child fileName) text = .ok tree' →
      tree.hasDevice (dir.child fileName) = false → load tree' dir = .ok ⟨c, true⟩ := by
  refine ⟨isSpelling_toJson c .pretty, fun text htext tree tree' dir hwrite hdevice => ?_⟩
  obtain ⟨hhas, hread⟩ := FileTree.readText_of_writeText hwrite hdevice
  have hfind : find? tree' dir = some (dir.child fileName) := by
    rw [find?, findIn, if_pos hhas]
  have hconfig := ofText_of_isSpelling htext
  have hload : loadFile tree' (dir.child fileName) = .ok c := by
    simp [loadFile, hread, hconfig, hvalid, Except.mapError, bind, Except.bind]
  rw [load, hfind]
  simp only [hload, Except.map]

/-- A config that differs from the default one in two settings. -/
def movedConfig : Config := { default with messagesRoot := "i18n", locales := ["de"] }

/-- Those two settings, the later one first and the other one under its other name, and an
entry that is no setting. -/
def movedEntries : List (String × List Char) :=
  [("note", ['[', ' ', 'n', 'u', 'l', 'l', ' ', ']']),
    ("locales", written .pretty 1 (textsJson ["de"])), ("messagesDir", stringText "i18n")]

theorem isSpelledBy_movedEntries : movedConfig.IsSpelledBy .pretty movedEntries where
  given e he name hname := by
    simp only [movedEntries, List.mem_cons, List.not_mem_nil, or_false] at he
    rcases he with rfl | rfl | rfl
    · cases hname
    · cases hname
      rfl
    · cases hname
      rfl
  others e he hname := by
    simp only [movedEntries, List.mem_cons, List.not_mem_nil, or_false] at he
    rcases he with rfl | rfl | rfl
    · exact @IsValueText.container .list [⟨[' '], ['n', 'u', 'l', 'l'], [' ']⟩] (by decide)
        (by simp [IsLead, IsBlank, isSpace]) (by simp [IsBlank, isSpace])
        (by simp [IsValueText.word])
    · cases hname
    · cases hname
  once := by decide
  omitted := by decide

def movedText : String :=
  String.ofList (bracketed .pretty 0 '\x7b' '\x7d' (movedEntries.map (entryText .pretty)))

def emptySite : FileTree := ⟨["site"], [(["site"], .directory)]⟩

/-- What is left out, renamed, moved or added does not change the config. -/
theorem written_config_is_loaded_moved :
    movedConfig.invalid? = none ∧ movedConfig.IsSpelling movedText ∧
      ∃ tree', emptySite.writeText (Path.child ⟨"."⟩ fileName) movedText = .ok tree' ∧
        load tree' ⟨"."⟩ = .ok ⟨movedConfig, true⟩ := by
  have hvalid : movedConfig.invalid? = none := by decide
  have hspelling : movedConfig.IsSpelling movedText :=
    ⟨.pretty, movedEntries, isSpelledBy_movedEntries, rfl⟩
  have hwrite : emptySite.writeText (Path.child ⟨"."⟩ fileName) movedText =
      .ok (emptySite.set ["site", ".transcheckrc.json"] (.file movedText.toUTF8)) := by rfl
  have hdevice : emptySite.hasDevice (Path.child ⟨"."⟩ fileName) = false := by decide
  exact ⟨hvalid, hspelling, _, hwrite,
    (written_config_is_loaded hvalid).2 movedText hspelling _ _ ⟨"."⟩ hwrite hdevice⟩

end Config

end CatalogAudit
