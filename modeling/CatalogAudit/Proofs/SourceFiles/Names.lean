/-
  CatalogAudit.Proofs.SourceFiles.Names — which names are those of source files.

  A name is given by its bytes, which need not be those of a text. It is a source file's when it
  ends in a script extension after its last dot and is not the name of a declaration
  (`isSourceName_iff`). Only a text can be that: a name whose bytes end as a declaration's do, but
  which is no text as a whole, is taken for a source file's (`declaration_may_be_a_source`). Of
  names that are texts this says what one expects (`isSource_iff`).
-/

import CatalogAudit.Proofs.FileTree.FileName
import CatalogAudit.Proofs.Text.Bytes
import CatalogAudit.SourceFiles

namespace CatalogAudit

open Text

/-! ## The last dot -/

section

variable {α : Type} {dot : α} {stem other ending rest : List α}

/-- Where a list has its last dot is told by the list. -/
theorem last_dot_inj (h : stem ++ dot :: ending = other ++ dot :: rest) (he : dot ∉ ending)
    (hr : dot ∉ rest) : stem = other ∧ ending = rest := by
  rcases List.append_eq_append_iff.1 h with ⟨more, hother, hending⟩ | ⟨more, hstem, hrest⟩
  · cases more with
    | nil => exact ⟨by simpa using hother.symm, (List.cons.inj hending).2⟩
    | cons d more => exact absurd (by simp [(List.cons.inj hending).2]) he
  · cases more with
    | nil => exact ⟨by simpa using hstem, (List.cons.inj hrest).2.symm⟩
    | cons d more => exact absurd (by simp [(List.cons.inj hrest).2]) hr

theorem exists_last_dot {name : List α} (h : dot ∈ name) :
    ∃ stem ending, name = stem ++ dot :: ending ∧ dot ∉ ending := by
  obtain ⟨before, after, hsplit, hbefore⟩ := List.eq_append_cons_of_mem (List.mem_reverse.2 h)
  refine ⟨after.reverse, before.reverse, ?_, by simpa using hbefore⟩
  simpa using congrArg List.reverse hsplit

end

namespace SourceFiles

/-! ## Names by their bytes -/

theorem bytes_extension (ext : String) : bytes ("." ++ ext) = '.'.toUInt8 :: bytes ext := by
  have hdot : bytes "." = ['.'.toUInt8] := by decide
  rw [bytes_append, hdot]
  rfl

theorem dot_mem_bytes_iff {s : String} : '.'.toUInt8 ∈ bytes s ↔ '.' ∈ s.toList := by
  rw [bytes_eq, dot_mem_encoded_iff]

theorem isDeclaration_iff {name : String} :
    isDeclaration name = true ↔ ∃ stem, name = stem ++ ".d.ts" := by
  rw [isDeclaration, List.isSuffixOf_iff_suffix]
  constructor
  · intro h
    obtain ⟨stem, hstem⟩ := h
    exact ⟨String.ofList stem, String.toList_inj.1 (by simp [← hstem])⟩
  · intro h
    obtain ⟨stem, rfl⟩ := h
    exact ⟨stem.toList, String.toList_append.symm⟩

/-- The name of a declaration is a text. -/
theorem any_isDeclaration_iff {name : List UInt8} :
    (ofBytes? name).any isDeclaration = true ↔
      ∃ stem : String, name = bytes (stem ++ ".d.ts") := by
  rw [Option.any_eq_true]
  constructor
  · intro h
    obtain ⟨text, htext, hends⟩ := h
    obtain ⟨stem, rfl⟩ := isDeclaration_iff.1 hends
    exact ⟨stem, ofBytes?_eq_some_iff.1 htext⟩
  · intro h
    obtain ⟨stem, hname⟩ := h
    exact ⟨_, ofBytes?_eq_some_iff.2 hname, isDeclaration_iff.2 ⟨stem, rfl⟩⟩

theorem not_dot_mem_extensions : ∀ ext ∈ extensions, '.' ∉ ext.toList := by decide

/-- The bytes after the last dot are those of a script extension, whatever comes before. -/
theorem any_extension_iff {name : List UInt8} :
    ((Path.splitName '.'.toUInt8 name).2.any fun ending =>
        (ofBytes? ending).any extensions.contains) = true ↔
      ∃ stem, ∃ ext ∈ extensions, name = stem ++ bytes ("." ++ ext) ∧ stem ≠ [] := by
  rw [Option.any_eq_true]
  constructor
  · intro h
    obtain ⟨ending, hending, hext⟩ := h
    obtain ⟨ext, htext, hmem⟩ := (Option.any_eq_true _ _).1 hext
    obtain ⟨stem, hstem, -, hname⟩ := Path.splitName_snd_eq_some_iff.1 hending
    rw [ofBytes?_eq_some_iff.1 htext, ← bytes_extension] at hname
    exact ⟨stem, ext, List.contains_iff_mem.1 hmem, hname, hstem⟩
  · intro h
    obtain ⟨stem, ext, hmem, hname, hstem⟩ := h
    rw [bytes_extension] at hname
    have hdot : '.'.toUInt8 ∉ bytes ext :=
      mt dot_mem_bytes_iff.1 (not_dot_mem_extensions ext hmem)
    refine ⟨bytes ext, Path.splitName_snd_eq_some_iff.2 ⟨stem, hstem, hdot, hname⟩, ?_⟩
    rw [ofBytes?_bytes, Option.any_some]
    exact List.contains_iff_mem.2 hmem

/-- A source file's name has a script extension, and is not a text that ends as a declaration's
name does. -/
theorem isSourceName_iff {name : List UInt8} :
    isSourceName name = true ↔
      (∃ stem, ∃ ext ∈ extensions, name = stem ++ bytes ("." ++ ext) ∧ stem ≠ []) ∧
        ∀ stem : String, name ≠ bytes (stem ++ ".d.ts") := by
  rw [isSourceName, Bool.and_eq_true, any_extension_iff, Bool.not_eq_true', ← Bool.not_eq_true,
    any_isDeclaration_iff, not_exists, and_comm]

/-- The name `café.d.ts` in Latin-1, which is no UTF-8. -/
theorem declaration_may_be_a_source :
    ¬ ∀ name : List UInt8, isSourceName name = true → ¬ bytes ".d.ts" <:+ name := by
  intro h
  have hsource : isSourceName (bytes "caf" ++ 0xe9 :: bytes ".d.ts") = true := by decide +kernel
  exact h _ hsource ⟨bytes "caf" ++ [0xe9], by simp⟩

/-! ## Names that are texts -/

/-- The bytes of a text end in an extension when the text does. -/
theorem exists_bytes_stem_iff {name ext : String} (hext : '.' ∉ ext.toList) :
    (∃ stem, bytes name = stem ++ bytes ("." ++ ext) ∧ stem ≠ []) ↔
      ∃ stem, name = stem ++ "." ++ ext ∧ stem ≠ "" := by
  constructor
  · intro h
    obtain ⟨stem, hname, hstem⟩ := h
    rw [bytes_extension] at hname
    have hdot : '.' ∈ name.toList := dot_mem_bytes_iff.1 (by simp [hname])
    obtain ⟨front, ending, hsplit, hending⟩ := exists_last_dot hdot
    have hbytes : bytes name =
        bytes (String.ofList front) ++ bytes ("." ++ String.ofList ending) := by
      rw [← bytes_append]
      congr 1
      exact String.toList_inj.1 (by simp [hsplit])
    rw [hname, bytes_extension] at hbytes
    obtain ⟨hfront, htail⟩ := last_dot_inj hbytes (mt dot_mem_bytes_iff.1 hext)
      (mt dot_mem_bytes_iff.1 (by simpa using hending))
    rw [← ofBytes?_eq_some_iff, ofBytes?_bytes, Option.some.injEq] at htail
    refine ⟨String.ofList front, String.toList_inj.1 (by simp [hsplit, htail]), ?_⟩
    intro hempty
    rw [hempty] at hfront
    exact hstem hfront
  · intro h
    obtain ⟨stem, rfl, hstem⟩ := h
    refine ⟨bytes stem, by rw [bytes_append, bytes_append, bytes_append, List.append_assoc], ?_⟩
    intro hnil
    have hempty : bytes stem = bytes "" := hnil
    rw [← ofBytes?_eq_some_iff, ofBytes?_bytes, Option.some.injEq] at hempty
    exact hstem hempty

theorem isSource_iff {file : Path} {name : String} (h : file.fileName? = some name) :
    isSource file = true ↔
      (∃ stem, ∃ ext ∈ extensions, name = stem ++ "." ++ ext ∧ stem ≠ "") ∧
        ∀ stem, name ≠ stem ++ ".d.ts" := by
  have hextension : (∃ stem, ∃ ext ∈ extensions, bytes name = stem ++ bytes ("." ++ ext) ∧
      stem ≠ []) ↔ ∃ stem, ∃ ext ∈ extensions, name = stem ++ "." ++ ext ∧ stem ≠ "" := by
    constructor
    · intro h
      obtain ⟨stem, ext, hmem, hname⟩ := h
      obtain ⟨text, htext⟩ :=
        (exists_bytes_stem_iff (not_dot_mem_extensions ext hmem)).1 ⟨stem, hname⟩
      exact ⟨text, ext, hmem, htext⟩
    · intro h
      obtain ⟨text, ext, hmem, htext⟩ := h
      obtain ⟨stem, hname⟩ :=
        (exists_bytes_stem_iff (not_dot_mem_extensions ext hmem)).2 ⟨text, htext⟩
      exact ⟨stem, ext, hmem, hname⟩
  have hdeclaration : (∀ stem : String, bytes name ≠ bytes (stem ++ ".d.ts")) ↔
      ∀ stem, name ≠ stem ++ ".d.ts" := by
    simp only [ne_eq, ← ofBytes?_eq_some_iff, ofBytes?_bytes, Option.some.injEq]
  rw [isSource, h, Option.any_some, isSourceName_iff, hextension, hdeclaration]

end SourceFiles

end CatalogAudit
