/-
  CatalogAudit.Proofs.Scan.PassOrder — the order of the passes that look keys up does not matter.

  What such a pass adds to the record of a file is told by the bindings that the record holds,
  and by nothing else in it (`finder_eq_extend`); the bindings stay as they are. Of any two such
  passes one at most adds namespaces, so in either order they give the same record but for the
  order of keys and notes (`FileUsage.Agrees`, `agrees_swap`).

  From two passes it goes on to any order of all of them (`agrees_of_perm`). Names that are used
  form a set, so a file uses the same names whatever the order (`key_passes_are_independent`).
-/

import CatalogAudit.Proofs.Scan.Attributes
import CatalogAudit.Proofs.Scan.FileOrder

namespace CatalogAudit

namespace Pass

/-- The passes that look keys up. -/
def keyPasses : List Pass := [.literalKey, .templateKey, .propertyKey, .componentKey]

end Pass

/-! ## Records that agree -/

/-- Two records tell the same, but for the order in which keys and notes were found. -/
structure FileUsage.Agrees (u v : FileUsage) : Prop where
  file : u.file = v.file
  bindings : u.bindings = v.bindings
  namespaces : u.namespaces = v.namespaces
  keys : u.keys.Perm v.keys
  notes : u.notes.Perm v.notes

/-- A record goes on from another one: the bindings are the same and the rest only got longer. -/
structure FileUsage.Continues (u v : FileUsage) : Prop where
  file : v.file = u.file
  bindings : v.bindings = u.bindings
  namespaces : u.namespaces <+: v.namespaces
  keys : u.keys <+: v.keys
  notes : u.notes <+: v.notes

namespace FileUsage

variable {u v w : FileUsage} {a b : Addition}

theorem Agrees.refl (u : FileUsage) : u.Agrees u := ⟨rfl, rfl, rfl, .refl _, .refl _⟩

theorem Agrees.trans (h : u.Agrees v) (h' : v.Agrees w) : u.Agrees w :=
  ⟨h.file.trans h'.file, h.bindings.trans h'.bindings, h.namespaces.trans h'.namespaces,
    h.keys.trans h'.keys, h.notes.trans h'.notes⟩

theorem Agrees.extend (h : u.Agrees v) (a : Addition) : (u.extend a).Agrees (v.extend a) := by
  rw [extend_eq, extend_eq, h.namespaces]
  exact ⟨h.file, h.bindings, rfl, h.keys.append_right _, h.notes.append_right _⟩

/-- Two additions may be swapped when one of them adds no namespace. -/
theorem agrees_extend_extend (u : FileUsage) (h : a.namespaces = [] ∨ b.namespaces = []) :
    ((u.extend a).extend b).Agrees ((u.extend b).extend a) := by
  have hswap {α : Type} (first xs ys : List α) : (first ++ xs ++ ys).Perm (first ++ ys ++ xs) := by
    rw [List.append_assoc, List.append_assoc]
    exact List.perm_append_comm.append_left first
  simp only [extend_eq]
  refine ⟨rfl, rfl, ?_, hswap _ _ _, hswap _ _ _⟩
  obtain h | h := h <;> simp [h]

theorem prefix_foldl_listOnce (names listed : List String) :
    listed <+: names.foldl listOnce listed := by
  induction names generalizing listed with
  | nil => exact List.prefix_refl listed
  | cons name names ih =>
    have hone : listed <+: listOnce listed name := by
      unfold listOnce
      split
      · exact List.prefix_refl listed
      · exact List.prefix_append listed _
    exact hone.trans (ih _)

theorem continues_extend (u : FileUsage) (a : Addition) : u.Continues (u.extend a) := by
  rw [extend_eq]
  exact ⟨rfl, rfl, prefix_foldl_listOnce _ _, List.prefix_append _ _, List.prefix_append _ _⟩

end FileUsage

/-- What files use together is told by records but for the order in them. -/
theorem Usage.addFile_congr {u v : FileUsage} (h : u.Agrees v) (usage : Usage) :
    usage.addFile u = usage.addFile v := by
  refine ext_mem (fun x => ?_) fun x => ?_
  · rw [mem_namespaces_addFile, mem_namespaces_addFile, h.namespaces]
  · rw [mem_keys_addFile, mem_keys_addFile, h.keys.mem_iff]

namespace Scan

/-! ## What the passes add -/

section
variable (rules : ScanRules) (source : Source)

/-- What a pass that looks keys up adds in a file with these bindings. -/
def keyAddition (b : Bindings) : Pass → Addition
  | .namespaceCall | .hookCall => ⟨[], [], []⟩
  | .literalKey => ⟨[], .all ((literalCalls source.text).map (literalFinding b))⟩
  | .templateKey => ⟨[], .all ((templateCalls source.text).map (templateFinding rules b))⟩
  | .propertyKey =>
    ⟨[], .all ((propertyCalls source.text).map (propertyFinding rules source.text b))⟩
  | .componentKey =>
    .all ((takenAttributes rules source.text).map (attributeAddition rules source.path b))

variable {pass : Pass}

theorem finder_eq_extend (h : pass ∈ Pass.keyPasses) (u : FileUsage) :
    pass.finder rules source u = u.extend (keyAddition rules source u.bindings pass) := by
  cases pass with
  | namespaceCall | hookCall => exact absurd h (by decide)
  | literalKey => exact literalKeys_eq_add source u
  | templateKey => exact templateKeys_eq_add rules source u
  | propertyKey => exact propertyKeys_eq_add rules source u
  | componentKey => exact componentKeys_eq_extend rules source u

theorem namespaces_keyAddition (b : Bindings) (h : pass ≠ .componentKey) :
    (keyAddition rules source b pass).namespaces = [] := by
  cases pass with
  | componentKey => exact absurd rfl h
  | _ => rfl

theorem agrees_finder (h : pass ∈ Pass.keyPasses) {u v : FileUsage} (huv : u.Agrees v) :
    (pass.finder rules source u).Agrees (pass.finder rules source v) := by
  rw [finder_eq_extend rules source h, finder_eq_extend rules source h, huv.bindings]
  exact huv.extend _

/-- Two passes that look keys up may be swapped. -/
theorem agrees_swap {first second : Pass} (hfirst : first ∈ Pass.keyPasses)
    (hsecond : second ∈ Pass.keyPasses) (u : FileUsage) :
    (second.finder rules source (first.finder rules source u)).Agrees
      (first.finder rules source (second.finder rules source u)) := by
  by_cases hsame : first = second
  · rw [hsame]
    exact .refl _
  · simp only [finder_eq_extend rules source hfirst, finder_eq_extend rules source hsecond,
      FileUsage.bindings_extend]
    refine FileUsage.agrees_extend_extend u ?_
    by_cases hcomponent : first = .componentKey
    · exact .inr (namespaces_keyAddition rules source _ fun h => hsame (hcomponent.trans h.symm))
    · exact .inl (namespaces_keyAddition rules source _ hcomponent)

/-! ## Any order -/

/-- Runs passes one after the other. -/
def runPasses (passes : List Pass) (u : FileUsage) : FileUsage :=
  passes.foldl (fun u pass => pass.finder rules source u) u

theorem agrees_runPasses {passes : List Pass} (h : ∀ pass ∈ passes, pass ∈ Pass.keyPasses)
    {u v : FileUsage} (huv : u.Agrees v) :
    (runPasses rules source passes u).Agrees (runPasses rules source passes v) := by
  induction passes generalizing u v with
  | nil => exact huv
  | cons pass passes ih =>
    obtain ⟨hpass, hpasses⟩ := List.forall_mem_cons.1 h
    exact ih hpasses (agrees_finder rules source hpass huv)

theorem agrees_of_perm {passes others : List Pass} (hperm : passes.Perm others)
    (h : ∀ pass ∈ passes, pass ∈ Pass.keyPasses) (u : FileUsage) :
    (runPasses rules source passes u).Agrees (runPasses rules source others u) := by
  induction hperm generalizing u with
  | nil => exact .refl u
  | cons pass _ ih => exact ih (List.forall_mem_cons.1 h).2 _
  | swap second first passes =>
    obtain ⟨hsecond, h⟩ := List.forall_mem_cons.1 h
    obtain ⟨hfirst, hpasses⟩ := List.forall_mem_cons.1 h
    exact agrees_runPasses rules source hpasses
      (agrees_swap rules source hsecond hfirst u)
  | trans hfirst _ ih ih' =>
    exact (ih h u).trans (ih' (fun pass hpass => h pass (hfirst.mem_iff.2 hpass)) u)

end

/-- What a file uses when the passes that look keys up come in an order of their own. -/
def scanInOrder (rules : ScanRules) (order : List Pass) (file : Path) (text : String) :
    FileUsage :=
  let source : Source := ⟨routePath file, text.toList⟩
  runPasses rules source order
    (runPasses rules source [.namespaceCall, .hookCall] (FileUsage.empty file))

theorem scanInOrder_keyPasses (rules : ScanRules) (file : Path) (text : String) :
    scanInOrder rules Pass.keyPasses file text = scanText rules file text := rfl

/-- The passes that look keys up go on from the record they are given, without a change to its
bindings. Any two of them may be swapped, and in whatever order they come, what a file uses is
the same. -/
theorem key_passes_are_independent (rules : ScanRules) (source : Source) (u : FileUsage) :
    (∀ pass ∈ Pass.keyPasses, u.Continues (pass.finder rules source u)) ∧
    (∀ first ∈ Pass.keyPasses, ∀ second ∈ Pass.keyPasses,
      (second.finder rules source (first.finder rules source u)).Agrees
        (first.finder rules source (second.finder rules source u))) ∧
    ∀ order : List Pass, order.Perm Pass.keyPasses → ∀ file text usage,
      (scanInOrder rules order file text).Agrees (scanText rules file text) ∧
        Usage.addFile usage (scanInOrder rules order file text) =
          usage.addFile (scanText rules file text) := by
  refine ⟨fun pass hpass => ?_, fun first hfirst second hsecond => ?_,
    fun order horder file text usage => ?_⟩
  · rw [finder_eq_extend rules source hpass]
    exact u.continues_extend _
  · exact agrees_swap rules source hfirst hsecond u
  · have hagrees : (scanInOrder rules order file text).Agrees (scanText rules file text) := by
      rw [← scanInOrder_keyPasses]
      exact agrees_of_perm rules _ horder (fun pass hpass => horder.mem_iff.1 hpass) _
    exact ⟨hagrees, Usage.addFile_congr hagrees usage⟩

/-- A source that looks one key up in a call and one in a tag. -/
def heroText : String :=
  "const t = useTranslations(\"home\");\nt(\"hero\");\n<FormattedMessage id=\"title\" />"

theorem key_passes_are_independent_reversed :
    Pass.keyPasses.reverse.Perm Pass.keyPasses ∧
      (scanText Config.default.scanRules ⟨"a.tsx"⟩ heroText).keys = ["home.hero", "home.title"] ∧
      (scanInOrder Config.default.scanRules Pass.keyPasses.reverse ⟨"a.tsx"⟩ heroText).keys =
        ["home.title", "home.hero"] ∧
      Usage.empty.addFile
          (scanInOrder Config.default.scanRules Pass.keyPasses.reverse ⟨"a.tsx"⟩ heroText) =
        Usage.empty.addFile (scanText Config.default.scanRules ⟨"a.tsx"⟩ heroText) := by
  have hperm : Pass.keyPasses.reverse.Perm Pass.keyPasses := List.reverse_perm _
  obtain ⟨-, -, horder⟩ := key_passes_are_independent Config.default.scanRules
    ⟨"a.tsx".toList, heroText.toList⟩ (FileUsage.empty ⟨"a.tsx"⟩)
  exact ⟨hperm, by decide +kernel, by decide +kernel,
    (horder _ hperm ⟨"a.tsx"⟩ heroText .empty).2⟩

end Scan

end CatalogAudit
