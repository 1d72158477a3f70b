/-
  CatalogAudit.Proofs.FileTree.Writing — what writing files and making directories does to a
  tree.

  What was written is said by `Rewrites`: each location stands as it stood, or holds a file that
  was written there, and the directories are the same. So no directory is taken away
  (`KeepsDirectories`), and a path that leads to a location still leads there afterwards
  (`locate_mono`). A write that succeeds is such a step, and what it wrote stands where its path
  leads to (`node?_write`); steps make runs (`Rewrites.trans`). A file that is there can be
  written over (`exists_write_over`). Making directories adds directories where nothing stood
  (`AddsDirectories`), whether it succeeds or not.
-/

import CatalogAudit.Log
import CatalogAudit.Proofs.FileTree.FileName
import CatalogAudit.Proofs.Text.Bytes

namespace CatalogAudit.FileTree

/-- The content of the file at a location. -/
def contentAt? (t : FileTree) (loc : Location) : Option ByteArray :=
  match t.node? loc with
  | some (.file content) => some content
  | _ => none

/-- What can be read at a path. -/
def content? (t : FileTree) (p : Path) : Option ByteArray := (t.read p).toOption

def hasDevice (t : FileTree) (p : Path) : Bool :=
  match t.look p with
  | .ok (_, .device) => true
  | _ => false

variable {t t' t'' : FileTree} {p : Path} {loc l : Location}

/-! ## Paths -/

/-- Relative paths start where they started, and no directory is gone. -/
structure KeepsDirectories (t t' : FileTree) : Prop where
  start : t'.workingDirectory = t.workingDirectory
  directories : ∀ loc, t.node? loc = some .directory → t'.node? loc = some .directory

theorem follow_mono (h : t.KeepsDirectories t') {segments : List String}
    (hf : t.follow loc segments = .ok l) : t'.follow loc segments = .ok l := by
  induction segments generalizing loc with
  | nil => exact hf
  | cons segment rest ih =>
    rw [follow] at hf
    split at hf
    · next hd =>
      rw [follow, h.directories loc hd]
      dsimp only
      split at hf
      · cases hf
      · next hlen =>
        rw [if_neg hlen]
        exact ih hf
    · cases hf
    · cases hf

theorem locate_mono (h : t.KeepsDirectories t') (hp : t.locate p = .ok l) :
    t'.locate p = .ok l := by
  unfold locate at hp ⊢
  split at hp
  · cases hp
  · rw [show t'.start p = t.start p by simp [FileTree.start, h.start]]
    exact follow_mono h hp

theorem locateNew_mono (h : t.KeepsDirectories t') {closed : Bool}
    (hp : t.locateNew p = .ok (loc, closed)) : t'.locateNew p = .ok (loc, closed) := by
  unfold locateNew at hp ⊢
  split at hp
  · cases hp
  · obtain ⟨l, hf, hp⟩ := bind_eq_ok.1 hp
    rw [← show t'.start p = t.start p by simp [FileTree.start, h.start]] at hf
    exact bind_eq_ok.2 ⟨l, follow_mono h hf, hp⟩

/-- A new file is made where its path leads to, unless the path closes with a slash. -/
theorem locate_of_locateNew (h : t.locateNew p = .ok (loc, false)) : t.locate p = .ok loc := by
  unfold locateNew at h
  unfold locate
  split at h
  · cases h
  · obtain ⟨named, hf, h⟩ := bind_eq_ok.1 h
    simp only [Except.ok.injEq, Prod.mk.injEq, decide_eq_false_iff_not, Nat.not_lt] at h
    obtain ⟨rfl, hlen⟩ := h
    -- a path without a closing slash has nothing to be dropped at its end
    have hsuffix := List.dropWhile_suffix (fun s : String => decide (s = ""))
      (l := (Text.split '/' p.text).reverse)
    have heq := hsuffix.eq_of_length_le (by simpa using hlen)
    rw [heq, List.reverse_reverse] at hf
    exact hf

theorem look_of_locate (hp : t.locate p = .ok loc) {node : Node} (hn : t.node? loc = some node) :
    t.look p = .ok (loc, node) := by
  simp [look, hp, hn, bind, Except.bind]

theorem hasDevice_of_locate (hp : t.locate p = .ok loc) (hn : t.node? loc = some .device) :
    t.hasDevice p = true := by
  rw [hasDevice, look_of_locate hp hn]

theorem hasDevice_of_file (hp : t.locate p = .ok loc) {content : ByteArray}
    (hn : t.node? loc = some (.file content)) : t.hasDevice p = false := by
  rw [hasDevice, look_of_locate hp hn]

theorem content?_of_locate (hp : t.locate p = .ok loc) :
    t.content? p =
      match t.node? loc with
      | some (.file content) => some content
      | some .device => some .empty
      | _ => none := by
  simp only [content?, read, look, hp, bind, Except.bind]
  cases t.node? loc with
  | none => rfl
  | some node => cases node <;> rfl

theorem content?_of_not_locate (hp : ∀ loc, t.locate p ≠ .ok loc) : t.content? p = none := by
  simp only [content?, read, look]
  cases h : t.locate p with
  | error e => rfl
  | ok loc => exact absurd h (hp loc)

theorem readText_eq_ok {text : String} :
    t.readText p = .ok text ↔ ∃ content, t.content? p = some content ∧
      String.fromUTF8? content = some text := by
  unfold readText content?
  cases t.read p with
  | error e => simp [bind, Except.bind, Except.toOption]
  | ok content =>
    simp only [bind, Except.bind, Except.toOption, Option.some.injEq, exists_eq_left', textOf]
    split
    · next h => simp [h]
    · next h => simp [h]

/-! ## Files -/

theorem node?_set_self {node : Node} (h : loc ≠ []) : (t.set loc node).node? loc = some node := by
  simp [node?, set, h, Assoc.value?_put_self]

/-- Each location stands as it stood or holds a file that was written there; the directories
are the same. -/
structure Rewrites (written : Location → ByteArray → Prop) (t t' : FileTree) : Prop where
  start : t'.workingDirectory = t.workingDirectory
  directories : ∀ loc, t'.node? loc = some .directory ↔ t.node? loc = some .directory
  nodes : ∀ loc, t'.node? loc = t.node? loc ∨
    ∃ content, t'.node? loc = some (.file content) ∧ written loc content

namespace Rewrites

variable {written more : Location → ByteArray → Prop}

theorem refl (written : Location → ByteArray → Prop) (t : FileTree) : t.Rewrites written t :=
  ⟨rfl, fun _ => Iff.rfl, fun _ => .inl rfl⟩

theorem trans (h : t.Rewrites written t') (h' : t'.Rewrites written t'') :
    t.Rewrites written t'' := by
  refine ⟨h'.start.trans h.start, fun loc => (h'.directories loc).trans (h.directories loc),
    fun loc => ?_⟩
  rcases h'.nodes loc with he | hw
  · rw [he]
    exact h.nodes loc
  · exact .inr hw

theorem mono (h : t.Rewrites written t') (hw : ∀ loc content, written loc content →
    more loc content) : t.Rewrites more t' :=
  ⟨h.start, h.directories, fun loc =>
    (h.nodes loc).imp id fun ⟨content, hn, hc⟩ => ⟨content, hn, hw loc content hc⟩⟩

theorem keepsDirectories (h : t.Rewrites written t') : t.KeepsDirectories t' :=
  ⟨h.start, fun loc => (h.directories loc).2⟩

theorem locate_iff (h : t.Rewrites written t') : t'.locate p = .ok loc ↔ t.locate p = .ok loc :=
  ⟨locate_mono ⟨h.start.symm, fun loc => (h.directories loc).1⟩,
    locate_mono h.keepsDirectories⟩

theorem contentAt?_cases (h : t.Rewrites written t') (loc : Location) :
    t'.contentAt? loc = t.contentAt? loc ∨
      ∃ content, t'.contentAt? loc = some content ∧ written loc content := by
  rcases h.nodes loc with he | ⟨content, hn, hw⟩
  · exact .inl (by rw [contentAt?, contentAt?, he])
  · exact .inr ⟨content, by rw [contentAt?, hn], hw⟩

theorem contentAt?_eq (h : t.Rewrites written t') (hl : ∀ content, ¬ written loc content) :
    t'.contentAt? loc = t.contentAt? loc :=
  (h.contentAt?_cases loc).resolve_right fun ⟨content, _, hw⟩ => hl content hw

/-- What is read at a path was there before or was written where the path leads to. -/
theorem content?_cases (h : t.Rewrites written t') (p : Path) :
    t'.content? p = t.content? p ∨
      ∃ loc content, t.locate p = .ok loc ∧ written loc content ∧ t'.content? p = some content := by
  cases hloc : t.locate p with
  | error e =>
    have hlost : ∀ l, t.locate p ≠ .ok l := by simp [hloc]
    have hlost' : ∀ l, t'.locate p ≠ .ok l := fun l hl => hlost l (h.locate_iff.1 hl)
    rw [content?_of_not_locate hlost, content?_of_not_locate hlost']
    exact .inl rfl
  | ok loc =>
    rw [content?_of_locate hloc, content?_of_locate (h.locate_iff.2 hloc)]
    rcases h.nodes loc with he | ⟨content, hn, hw⟩
    · exact .inl (by rw [he])
    · exact .inr ⟨loc, content, rfl, hw, by rw [hn]⟩

end Rewrites

/-- A write that succeeds puts its content where the path leads to, unless a device stands
there. -/
theorem node?_write {content : ByteArray} (h : t.write p content = .ok t') :
    ∃ loc, t.locate p = .ok loc ∧ t.Rewrites (fun l c => l = loc ∧ c = content) t' ∧
      (t'.node? loc = some (.file content) ∨ t.node? loc = some .device) := by
  obtain ⟨⟨loc, closed⟩, hloc, h⟩ := bind_eq_ok.1 h
  cases closed with
  | true => cases h
  | false =>
    refine ⟨loc, locate_of_locateNew hloc, ?_⟩
    dsimp only at h
    rw [if_neg (by simp)] at h
    split at h
    · cases h
    · next hdev =>
      cases h
      exact ⟨.refl _ _, .inr hdev⟩
    · next hdir hdev =>
      cases h
      have hne : loc ≠ [] := fun e => hdir (e ▸ rfl)
      refine ⟨⟨rfl, fun l => ?_, fun l => ?_⟩, .inl (node?_set_self hne)⟩
      · by_cases hl : l = loc
        · subst hl
          exact iff_of_false (by simp [node?_set_self hne]) hdir
        · rw [node?_set_of_ne hl]
      · by_cases hl : l = loc
        · subst hl
          exact .inr ⟨content, node?_set_self hne, rfl, rfl⟩
        · exact .inl (node?_set_of_ne hl)

/-- A text that was written where no device stands is there to be read. -/
theorem readText_of_writeText {text : String} (h : t.writeText p text = .ok t')
    (hdevice : t.hasDevice p = false) : t'.has p = true ∧ t'.readText p = .ok text := by
  obtain ⟨loc, hloc, hrewrites, hnode⟩ := node?_write h
  have hloc' := hrewrites.locate_iff.2 hloc
  rcases hnode with hnode | hnode
  · refine ⟨?_, readText_eq_ok.2 ⟨text.toUTF8, ?_, Text.fromUTF8?_toUTF8 text⟩⟩
    · rw [has, look_of_locate hloc' hnode]
      rfl
    · rw [content?_of_locate hloc', hnode]
  · rw [hasDevice_of_locate hloc hnode] at hdevice
    cases hdevice

theorem isOk_write_iff {content : ByteArray} :
    (t.write p content).isOk = true ↔
      ∃ loc, t.locateNew p = .ok (loc, false) ∧ t.node? loc ≠ some .directory := by
  rw [write]
  cases h : t.locateNew p with
  | error e => simp [bind, Except.bind, Except.isOk, Except.toBool]
  | ok new =>
    obtain ⟨loc, closed⟩ := new
    cases closed with
    | true => simp [bind, Except.bind, Except.isOk, Except.toBool]
    | false =>
      simp only [bind, Except.bind, Bool.false_eq_true, if_false, Except.ok.injEq, Prod.mk.injEq,
        and_true, exists_eq_left']
      split
      · next hdir => simp [hdir, Except.isOk, Except.toBool]
      · next hdev => simp [hdev, Except.isOk, Except.toBool]
      · next hdir _ => simpa [Except.isOk, Except.toBool] using hdir

/-- Whether a file can be written does not depend on what other files hold. -/
theorem Rewrites.isOk_write {written : Location → ByteArray → Prop} (h : t.Rewrites written t')
    (p : Path) (content : ByteArray) :
    (t'.write p content).isOk = (t.write p content).isOk := by
  have hback : t'.KeepsDirectories t := ⟨h.start.symm, fun loc => (h.directories loc).1⟩
  rw [Bool.eq_iff_iff, isOk_write_iff, isOk_write_iff]
  refine exists_congr fun loc => and_congr ?_ (not_congr (h.directories loc))
  exact ⟨locateNew_mono hback, locateNew_mono h.keepsDirectories⟩

/-! ## Writing a file over -/

theorem set_of_node? {node : Node} (hne : loc ≠ []) (h : t.node? loc = some node) :
    t.set loc node = t := by
  rw [node?, if_neg hne] at h
  rw [set, Assoc.put_of_value? h]

/-- A path whose text ends in a name leads to one location, whether it is read or written. -/
theorem locateNew_of_locate {before ending : List Char} (htext : p.text.toList = before ++ ending)
    (hsep : '/' ∉ ending) (hne : ending ≠ []) (h : t.locate p = .ok loc) :
    t.locateNew p = .ok (loc, false) := by
  obtain ⟨pieces, last, hsplit⟩ := Text.splitOn_append_of_not_mem before hsep
  have hlast : String.ofList (last ++ ending) ≠ "" := by
    intro e
    have hnil := congrArg String.toList e
    simp [hne] at hnil
  have hsegments : Text.split '/' p.text =
      pieces.map String.ofList ++ [String.ofList (last ++ ending)] := by
    rw [Text.split, htext, hsplit, List.map_append, List.map_singleton]
  have hnamed : ((Text.split '/' p.text).reverse.dropWhile (· = "")).reverse =
      Text.split '/' p.text := by
    rw [hsegments, List.reverse_append, List.reverse_singleton, List.singleton_append,
      List.dropWhile_cons_of_neg (by simpa using hlast), List.reverse_cons, List.reverse_reverse]
  unfold locate at h
  unfold locateNew
  split at h
  · cases h
  · dsimp only
    rw [hnamed, h]
    simp [bind, Except.bind]

theorem write_of_node? {old : ByteArray} (hp : t.locateNew p = .ok (loc, false))
    (hn : t.node? loc = some (.file old)) (content : ByteArray) :
    t.write p content = .ok (t.set loc (.file content)) := by
  simp [write, hp, hn, bind, Except.bind]

/-- A file that is there can be written over. It holds what was written then, and writing the
same again changes nothing. -/
theorem exists_write_over {before ending : List Char} (htext : p.text.toList = before ++ ending)
    (hsep : '/' ∉ ending) (hending : ending ≠ []) (hp : t.locate p = .ok loc) {old : ByteArray}
    (hn : t.node? loc = some (.file old)) (content : ByteArray) :
    ∃ t', t.write p content = .ok t' ∧ t'.content? p = some content ∧
      t'.write p content = .ok t' := by
  have hne : loc ≠ [] := by
    rintro rfl
    cases hn
  have hwrite := write_of_node? (locateNew_of_locate htext hsep hending hp) hn content
  obtain ⟨_, -, hrewrites, -⟩ := node?_write hwrite
  have hp' := hrewrites.locate_iff.2 hp
  have hn' : (t.set loc (.file content)).node? loc = some (.file content) := node?_set_self hne
  have hagain := write_of_node? (locateNew_of_locate htext hsep hending hp') hn' content
  refine ⟨_, hwrite, ?_, ?_⟩
  · rw [content?_of_locate hp', hn']
  · rw [set_of_node? hne hn'] at hagain
    exact hagain

/-! ## Directories -/

/-- Each location stands as it stood, or is a new directory. -/
structure AddsDirectories (t t' : FileTree) : Prop where
  start : t'.workingDirectory = t.workingDirectory
  nodes : ∀ loc, t'.node? loc = t.node? loc ∨
    t.node? loc = none ∧ t'.node? loc = some .directory

namespace AddsDirectories

theorem refl (t : FileTree) : t.AddsDirectories t := ⟨rfl, fun _ => .inl rfl⟩

theorem trans (h : t.AddsDirectories t') (h' : t'.AddsDirectories t'') :
    t.AddsDirectories t'' := by
  refine ⟨h'.start.trans h.start, fun loc => ?_⟩
  rcases h'.nodes loc with he' | ⟨hn', hd'⟩
  · rw [he']
    exact h.nodes loc
  · rcases h.nodes loc with he | ⟨hn, hd⟩
    · exact .inr ⟨he ▸ hn', hd'⟩
    · exact .inr ⟨hn, hd'⟩

theorem contentAt?_eq (h : t.AddsDirectories t') (loc : Location) :
    t'.contentAt? loc = t.contentAt? loc := by
  rcases h.nodes loc with he | ⟨hn, hd⟩
  · rw [contentAt?, contentAt?, he]
  · rw [contentAt?, contentAt?, hn, hd]

end AddsDirectories

theorem addsDirectories_makeDirectory (h : t.makeDirectory p = .ok t') : t.AddsDirectories t' := by
  obtain ⟨⟨loc, closed⟩, -, h⟩ := bind_eq_ok.1 h
  dsimp only at h
  split at h
  · cases h
  · next hn =>
    cases h
    have hne : loc ≠ [] := by
      rintro rfl
      cases hn
    refine ⟨rfl, fun l => ?_⟩
    by_cases hl : l = loc
    · subst hl
      exact .inr ⟨hn, node?_set_self hne⟩
    · exact .inl (node?_set_of_ne hl)

theorem addsDirectories_ensureDirectory (t : FileTree) (p : Path) :
    t.AddsDirectories (t.ensureDirectory p).1 := by
  unfold ensureDirectory
  split
  · next h => exact addsDirectories_makeDirectory h
  · exact .refl t

theorem addsDirectories_makeDirectoriesWithin (t : FileTree) (steps : Nat) (p : Path) :
    t.AddsDirectories (t.makeDirectoriesWithin steps p).1 := by
  induction steps generalizing p with
  | zero => exact .refl t
  | succ steps ih =>
    unfold makeDirectoriesWithin
    split
    · exact .refl t
    · split
      · split
        · exact .refl t
        · next parent _ =>
          have hparent := ih parent
          split
          · next above hmade =>
            rw [hmade] at hparent
            exact hparent.trans (addsDirectories_ensureDirectory above p)
          · exact hparent
      · exact addsDirectories_ensureDirectory t p

theorem addsDirectories_makeParent (t : FileTree) (p : Path) :
    t.AddsDirectories (Log.makeParent t p).1 := by
  unfold Log.makeParent
  split
  · exact .refl t
  · split
    · exact .refl t
    · exact addsDirectories_makeDirectoriesWithin t _ _

end CatalogAudit.FileTree
