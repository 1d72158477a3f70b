/-
  CatalogAudit.Proofs.Surplus.FailedSaves — what becomes of a run when files cannot be written.

  Any set of files may be refused (`pruneUnless`). What is removed from the catalogs is what a
  trial run says all the same, and each catalog comes to its own end (`Outcome`): it had nothing
  to remove and is left alone, or it is saved and its file holds its text, or it could not be
  saved and its file is as before.
-/

import CatalogAudit.Proofs.Surplus.Saving

namespace CatalogAudit

/-- What became of a catalog `c`, which is `d` now, and of its file. -/
inductive Outcome (refused : Path → Option FileError) (s : Surplus) (before after : FileTree)
    (c d : Catalog) : Saving → Prop
  | untouched : s.touches c = false → d = c → after.content? c.file = before.content? c.file →
      Outcome refused s before after c d .untouched
  | saved : s.touches c = true → s.saves refused before c = true → d = s.left c →
      after.content? c.file = some d.text.toUTF8 → Outcome refused s before after c d .saved
  | failed (e : Catalog.SaveError) : s.touches c = true → s.saves refused before c = false →
      d = s.left c → after.content? c.file = before.content? c.file →
      Outcome refused s before after c d (.failed e)

namespace Surplus

variable {refused : Path → Option FileError} {s : Surplus} {tree tree' : FileTree}
  {catalogs : List Catalog}

theorem content?_of_not_saves (hfiles : OwnFiles tree catalogs) {c : Catalog} (hc : c ∈ catalogs)
    (hsaves : s.saves refused tree c = false)
    (h : tree.Rewrites (s.Writes refused tree catalogs) tree') :
    tree'.content? c.file = tree.content? c.file := by
  rcases h.content?_cases c.file with he | ⟨loc, content, hloc, hw, -⟩
  · exact he
  · rw [(hw.own hfiles hc hloc).1] at hsaves
    cases hsaves

theorem outcome_pruneUnless (hfiles : OwnFiles tree catalogs) {i : Nat} {c d : Catalog}
    {removal : Removal} (hc : catalogs[i]? = some c)
    (hd : (s.pruneUnless refused .remove tree catalogs).catalogs[i]? = some d)
    (hr : (s.pruneUnless refused .remove tree catalogs).removals[i]? = some removal) :
    Outcome refused s tree (s.pruneUnless refused .remove tree catalogs).tree c d
      removal.saving := by
  have hmem := List.mem_of_getElem? hc
  have hall := rewrites_pruneUnless refused s tree catalogs
  obtain ⟨before, hbefore, hafter, hd', hr'⟩ := turn_pruneUnless refused s tree hc
  rw [hd] at hd'
  rw [hr] at hr'
  cases hd'
  cases hr'
  rcases handleUnless_cases refused s before c with ⟨ht, h⟩ | ⟨saving, turn, ht, h, hsave⟩
  · rw [h]
    have hsaves : s.saves refused tree c = false := by rw [saves, ht, Bool.false_and]
    exact .untouched ht rfl (content?_of_not_saves hfiles hmem hsaves hall)
  · have hsaves : s.saves refused before c = s.saves refused tree c := saves_eq hbefore c
    rw [h] at hafter ⊢
    rcases hsave with ⟨rfl, hok⟩ | ⟨e, rfl, herror, -⟩
    · have : s.saves refused before c = true := by rw [saves, ht, hok]; rfl
      have hdevice := hfiles.noDevice c hmem
      obtain ⟨loc, content, hloc, hw, hread, -⟩ :=
        content?_of_saves hdevice hmem hbefore ht hok hafter
      rw [(hw.own hfiles hmem hloc).2] at hread
      exact .saved ht (hsaves ▸ this) rfl hread
    · have : s.saves refused before c = false := by rw [saves, ht, herror]; rfl
      rw [this] at hsaves
      exact .failed e ht hsaves.symm rfl (content?_of_not_saves hfiles hmem hsaves.symm hall)

/-- A file that cannot be written changes nothing but what becomes of it, and a trial run says
what will be removed. -/
theorem failed_saves_are_isolated (refused : Path → Option FileError) (s : Surplus)
    {tree : FileTree} {catalogs : List Catalog} (hfiles : OwnFiles tree catalogs) :
    let trial := s.prune .trial tree catalogs
    let result := s.pruneUnless refused .remove tree catalogs
    trial.tree = tree ∧ trial.catalogs = catalogs ∧
      trial.removals.map (·.locale) = catalogs.map (·.locale) ∧
      result.removals.map (fun r => (r.locale, r.keys, r.namespaces)) =
        trial.removals.map (fun r => (r.locale, r.keys, r.namespaces)) ∧
      result.catalogs.length = catalogs.length ∧
      (∀ (i : Nat) (c d : Catalog) (removal : Removal), catalogs[i]? = some c →
        result.catalogs[i]? = some d → result.removals[i]? = some removal →
        Outcome refused s tree result.tree c d removal.saving) ∧
      (Totals.ofRemovals result.removals).filesSaved =
        (catalogs.filter (s.saves refused tree)).length := by
  intro trial result
  have htrial : trial = _ := pruneUnless_trial _ s tree catalogs
  refine ⟨by rw [htrial], by rw [htrial], ?_, ?_, ?_, ?_, ?_⟩
  · rw [htrial, List.map_map]
    rfl
  · rw [htrial, List.map_map]
    exact removals_pruneUnless refused s .remove tree catalogs
  · rw [catalogs_pruneUnless refused s tree catalogs, List.length_map]
  · exact fun i c d removal hc hd hr => outcome_pruneUnless hfiles hc hd hr
  · have hsaved := isSaved_pruneUnless refused s tree catalogs
    have hcount := congrArg (List.countP id) hsaved
    rw [List.countP_map, List.countP_map] at hcount
    simpa [Totals.ofRemovals, List.countP_eq_length_filter, Function.comp_def] using hcount

/-- Four catalogs: one that is saved, one whose file cannot be written, one whose directory is
missing and one with nothing to remove. -/
def mixedCatalogs : List Catalog :=
  [⟨"en", ⟨"messages/en.json"⟩, [("title", .str "Title"), ("stale", .str "Old")], rfl⟩,
    ⟨"de", ⟨"messages/de.json"⟩, [("title", .str "Titel"), ("stale", .str "Alt")], rfl⟩,
    ⟨"fr", ⟨"missing/fr.json"⟩, [("stale", .str "Vieux")], rfl⟩,
    ⟨"nl", ⟨"messages/nl.json"⟩, [("title", .str "Titel")], rfl⟩]

def mixedTree : FileTree :=
  ⟨[], [(["messages"], .directory), (["messages", "de.json"], .file "old".toUTF8),
    (["messages", "nl.json"], .file "kept".toUTF8)]⟩

def mixedSurplus : Surplus :=
  [⟨"en", [], ["stale"]⟩, ⟨"de", [], ["stale"]⟩, ⟨"fr", [], ["stale"]⟩, ⟨"nl", [], []⟩]

def refusesGerman (p : Path) : Option FileError :=
  if p.text = "messages/de.json" then some .isDirectory else none

theorem failed_saves_are_isolated_mixed :
    OwnFiles mixedTree mixedCatalogs ∧
      let result := mixedSurplus.pruneUnless refusesGerman .remove mixedTree mixedCatalogs
      result.removals.map (·.isSaved) = [true, false, false, false] ∧
        (Totals.ofRemovals result.removals).filesSaved = 1 ∧
        result.tree.content? ⟨"messages/de.json"⟩ = some "old".toUTF8 ∧
        result.tree.content? ⟨"messages/en.json"⟩ =
          some "\x7b\n  \"title\": \"Title\"\n\x7d\n".toUTF8 := by
  have hfiles : OwnFiles mixedTree mixedCatalogs := ⟨by decide +kernel, by decide +kernel⟩
  obtain ⟨-, -, -, -, -, houtcome, hsaved⟩ :=
    failed_saves_are_isolated refusesGerman mixedSurplus hfiles
  refine ⟨hfiles, ?_, ?_, ?_, ?_⟩
  · rw [isSaved_pruneUnless]
    decide +kernel
  · rw [hsaved]
    decide +kernel
  · cases houtcome 1 _ _ _ rfl rfl rfl with
    | failed e _ _ _ hcontent => exact hcontent
  · cases houtcome 0 _ _ _ rfl rfl rfl with
    | saved _ _ _ hcontent => exact hcontent

end Surplus

end CatalogAudit
