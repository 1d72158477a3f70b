/-
  CatalogAudit.Proofs.Scan.PropertyKeys — what becomes of a key that is looked up through a
  property.

  Such a call is a word, a parenthesis and two words with a dot between them. No two calls of
  this kind overlap, so the search lists every one of them that stands in the text
  (`mem_propertyCalls_iff`).

  A call through an identifier that is bound has one of three outcomes (`Outcome`): the key is
  traced in the file, or the hints that apply to the file give keys, or nothing is found and no
  key is guessed. Each has one note that tells which it was, so the notes account for all calls
  (`property_keys_are_noted`). A hint more takes no key away and leaves a traced key as it is.
-/

import CatalogAudit.Proofs.Scan.Lookups
import CatalogAudit.Proofs.Text.Splitting
import Mathlib.Data.List.Flatten
import Mathlib.Data.List.Forall2

namespace CatalogAudit.Shape

open Text Text.Pattern

/-! ## Calls with a property -/

/-- A call with a property is found where it is written. -/
theorem match?_dottedCall {identifier owner name gap more before : List Char}
    (hidentifier : IsWordText identifier) (howner : IsWordText owner) (hname : IsWordText name)
    (hbefore : before.head?.any isWord = false) (hgap : ∀ c ∈ gap, isBlank c = true)
    (hmore : ∀ c ∈ more, isBlank c = true) (rest : List Char) :
    ∃ d, (wholeCall wholeDotted).match?
        ⟨before, identifier ++ '(' :: (gap ++ ((owner ++ '.' :: name) ++ (more ++ ')' :: rest)))⟩ =
      some ([identifier, owner, name], d) := by
  have hdot (cs : List Char) : ('.' :: cs).head?.any isWord = false := any_head?_cons (by decide) cs
  have hfirst (cs : List Char) : (owner ++ cs).head?.any isBlank = false := by
    obtain ⟨x, owner, rfl⟩ := List.exists_cons_of_ne_nil howner.1
    exact any_head?_cons (isBlank_eq_false_of_isWord (howner.2 x List.mem_cons_self)) _
  have hopen (cs : List Char) : (gap.reverse ++ '(' :: cs).head?.any isWord = false :=
    head?_blanks (by simpa using hgap) (by decide) cs
  have hclose : (more ++ ')' :: rest).head?.any isWord = false :=
    head?_blanks hmore (by decide) rest
  have hparen : (')' :: rest).head?.any isBlank = false := any_head?_cons (by decide) rest
  rw [match?, List.append_assoc, List.cons_append]
  simp only [wholeCall, wholeDotted, argument, all, List.foldr_cons, List.foldr_nil, blanks,
    matchThen_seq, matchThen_word hidentifier.1 hidentifier.2 hbefore (head?_paren _),
    matchThen_char,
    matchThen_span hgap (hfirst _), matchThen_word howner.1 howner.2 (hopen _) (hdot _),
    matchThen_word hname.1 hname.2 (hdot _) hclose, matchThen_span hmore hparen, matchThen_nothing,
    List.nil_append, List.append_nil, List.cons_append]
  exact ⟨_, rfl⟩

/-- Before a parenthesis is closed, a word in front of it is followed by the opening one. -/
theorem paren_mem {w rest more stop : List Char} (hw : ∀ c ∈ w, isWord c = true)
    (h : w ++ '(' :: rest = more ++ ')' :: stop) : '(' ∈ more := by
  rcases List.append_eq_append_iff.1 h with ⟨tail, hmore, hparen⟩ | ⟨tail, hword, hparen⟩
  · cases tail with
    | nil => exact absurd (List.cons.inj hparen).1 (by decide)
    | cons x tail =>
      obtain ⟨rfl, -⟩ := List.cons.inj hparen
      simp [hmore]
  · cases tail with
    | nil => exact absurd (List.cons.inj hparen).1 (by decide)
    | cons x tail =>
      obtain ⟨rfl, -⟩ := List.cons.inj hparen
      exact absurd (hw ')' (by simp [hword])) (by decide)

/-- A call reaches into no later one when its argument has no parenthesis. -/
theorem length_le_of_later_call {us identifier body stop w rest : List Char} (hus : us ≠ [])
    (hedge : us.getLast?.any isWord = false) (hidentifier : ∀ c ∈ identifier, isWord c = true)
    (hbody : '(' ∉ body) (hw : IsWordText w)
    (h : us ++ (w ++ '(' :: rest) = identifier ++ '(' :: (body ++ ')' :: stop)) :
    (w ++ '(' :: rest).length ≤ stop.length := by
  obtain ⟨hne, hword⟩ := hw
  obtain ⟨x, w, rfl⟩ := List.exists_cons_of_ne_nil hne
  have hfirst {c : Char} (hc : isWord c = false) : x ≠ c :=
    ne_of_class (hword x List.mem_cons_self) hc
  rcases List.append_eq_append_iff.1 h with ⟨tail, hid, -⟩ | ⟨tail, -, htail⟩
  · -- the later call would start within the word
    obtain ⟨us, u, rfl⟩ := (List.eq_nil_or_concat' us).resolve_left hus
    have hu : isWord u = true := hidentifier u (by simp [hid])
    simp [hu] at hedge
  · cases tail with
    | nil => exact absurd (List.cons.inj htail).1.symm (hfirst isWord_paren)
    | cons y tail =>
      obtain ⟨-, hbelow⟩ : '(' = y ∧ body ++ ')' :: stop = tail ++ (x :: w ++ '(' :: rest) :=
        List.cons.inj htail
      rcases List.append_eq_append_iff.1 hbelow with ⟨more, -, hstop⟩ | ⟨more, hmore, hlater⟩
      · cases more with
        | nil => exact absurd (List.cons.inj hstop).1.symm (hfirst (by decide))
        | cons z more =>
          obtain ⟨-, rfl⟩ := List.cons.inj hstop
          simp
      · -- the later call would start in the argument, where its parenthesis does not stand
        exact absurd (by simp [hmore, paren_mem hword hlater]) hbody

/-- A call with a property ends before the next one starts. -/
theorem length_le_of_matches_dottedCall {us identifier before rest : List Char}
    {fields : List (List Char)} {d : Cursor} (hus : us ≠ [])
    (hedge : us.getLast?.any isWord = false) (hidentifier : IsWordText identifier)
    (h : Matches (wholeCall wholeDotted) ⟨before, us ++ (identifier ++ '(' :: rest)⟩ fields d) :
    (identifier ++ '(' :: rest).length ≤ d.after.length := by
  obtain ⟨word, _, gap, more, start, stop, -, hword, -, hgap, hmore, ha, hafter, hstop⟩ :=
    takes_call h
  obtain ⟨owner, name, howner, hname, -, hstart⟩ := takes_dotted ha
  have hblanks {cs : List Char} (h : ∀ c ∈ cs, isBlank c = true) : '(' ∉ cs := fun hm =>
    absurd (h _ hm) (by decide)
  have hwords {cs : List Char} (h : IsWordText cs) : '(' ∉ cs := fun hm =>
    absurd (h.2 _ hm) (by decide)
  have hbody : '(' ∉ gap ++ (owner ++ '.' :: name ++ more) := by
    simp [hblanks hgap, hwords howner, hwords hname, hblanks hmore]
  refine length_le_of_later_call hus hedge hword.2 hbody hidentifier ?_
  rw [hstart, hstop] at hafter
  simpa using hafter

end CatalogAudit.Shape

namespace CatalogAudit

open Text Text.Pattern Shape Source

theorem Scan.Property.toList_text (p : Scan.Property) :
    p.text.toList = p.owner.toList ++ '.' :: p.name.toList := by
  simp [Property.text]

/-- A hint marks a text that holds one of its markers. -/
def Hint.Marks (hint : Hint) (text : List Char) : Prop :=
  ∃ marker ∈ hint.markers, marker.toList <:+: text

theorem Hint.applies_iff {hint : Hint} {text : List Char} :
    hint.applies text = true ↔ hint.Marks text := by
  simp [applies, Marks, occurs_iff]

instance (hint : Hint) (text : List Char) : Decidable (hint.Marks text) :=
  decidable_of_iff _ Hint.applies_iff

namespace Scan

/-- The calls with a property that are listed are those that stand in the text. -/
theorem mem_propertyCalls_iff {text : List Char} {c : Call Property} :
    c ∈ propertyCalls text ↔ IsWordText c.argument.owner.toList ∧
      IsWordText c.argument.name.toList ∧
      CallsAfter text c.front c.identifier.toList c.argument.text.toList := by
  constructor
  · intro h
    obtain ⟨m, hm, hc⟩ := mem_callsOf.1 h
    obtain ⟨identifier, owner, name, hfields, howner, hname, hcall⟩ := property_of_mem_findAll hm
    cases (Call.ofMatch?_of_triple hfields).symm.trans hc
    simpa [Property.toList_text] using ⟨howner, hname, hcall⟩
  · rintro ⟨howner, hname, gap, more, rest, htext, hfront, hidentifier, hgap, hmore⟩
    rw [Property.toList_text] at htext
    have hbefore : c.front.reverse.head?.any isWord = false := by simpa using hfront
    obtain ⟨d, hm⟩ := match?_dottedCall hidentifier howner hname hbefore hgap hmore rest
    have hfound := mem_findAll_of_match? (by simp) hm fun us vs found e hsplit hne hearlier => by
      rw [hsplit, List.getLast?_append_of_ne_nil us hne] at hfront
      exact length_le_of_matches_dottedCall hne hfront hidentifier (match?_sound hearlier)
    rw [← htext, ← findAll_dottedCall] at hfound
    refine mem_callsOf.2 ⟨_, hfound, ?_⟩
    simp [Call.ofMatch?, property?]

/-! ## Outcomes -/

/-- The keys that the hints for a text give in a namespace, in the order of the hints. -/
def hintKeys (hints : List Hint) (text : List Char) (nspace : String) : List String :=
  (hints.filter (·.Marks text)).flatMap fun hint => hint.keys.map (fullKey nspace)

/-- What a call with a property comes to, in the namespace of its identifier. -/
inductive Outcome (hints : List Hint) (text : List Char) (nspace : String) (p : Property) :
    Finding → Prop
  | resolved {key : String} : tracedKey? text p.owner = some key →
      Outcome hints text nspace p ⟨[fullKey nspace key], [⟨.resolved, fullKey nspace p.text⟩]⟩
  | fallback : tracedKey? text p.owner = none → (∃ hint ∈ hints, hint.Marks text) →
      Outcome hints text nspace p
        ⟨hintKeys hints text nspace, [⟨.fallback, fullKey nspace p.text⟩]⟩
  | unresolved : tracedKey? text p.owner = none → (∀ hint ∈ hints, ¬ hint.Marks text) →
      Outcome hints text nspace p ⟨[], [⟨.unresolved, fullKey nspace p.text⟩]⟩

section
variable {rules : ScanRules} {text : List Char} {b : Bindings} {c : Call Property} {nspace : String}

theorem propertyFinding_unbound (h : b.namespaceOf? c.identifier = none) :
    propertyFinding rules text b c = ⟨[], []⟩ := by
  simp [propertyFinding, found, addProperty, h, FileUsage.empty]

theorem filter_applies (hints : List Hint) (text : List Char) :
    hints.filter (·.applies text) = hints.filter (·.Marks text) :=
  List.filter_congr fun hint _ => by simp [← Hint.applies_iff]

theorem outcome_propertyFinding (rules : ScanRules) (text : List Char)
    (h : b.namespaceOf? c.identifier = some nspace) :
    Outcome rules.hints text nspace c.argument (propertyFinding rules text b c) := by
  simp only [propertyFinding, found, addProperty, h, filter_applies]
  split
  · next key hkey => exact .resolved hkey
  · next hkey =>
    split
    · next hnone =>
      rw [List.isEmpty_iff, List.filter_eq_nil_iff] at hnone
      exact .unresolved hkey (by simpa using hnone)
    · next hsome =>
      refine .fallback hkey ?_
      simpa [List.filter_eq_nil_iff] using hsome

end

/-! ## More hints -/

/-- A note keeps its expression, and it is of a traced key after as before. -/
def Persists (n m : Note) : Prop :=
  m.expression = n.expression ∧ (n.kind = .resolved ↔ m.kind = .resolved)

theorem forall₂_persists_refl (notes : List Note) : List.Forall₂ Persists notes notes :=
  List.forall₂_same.2 fun _ _ => ⟨rfl, .rfl⟩

/-- From one finding to another no key is lost, and the notes persist. -/
structure Widens (f g : Finding) : Prop where
  keys : f.keys.Sublist g.keys
  notes : List.Forall₂ Persists f.notes g.notes

theorem Widens.refl (f : Finding) : Widens f f := ⟨.refl _, forall₂_persists_refl _⟩

theorem widens_all {α : Type} {f g : α → Finding} (h : ∀ a, Widens (f a) (g a)) (as : List α) :
    Widens (.all (as.map f)) (.all (as.map g)) := by
  induction as with
  | nil => exact .refl _
  | cons a as ih =>
    simp only [Finding.all, List.map_cons, List.flatMap_cons]
    exact ⟨(h a).keys.append ih.keys, List.rel_append (h a).notes ih.notes⟩

/-- Where there are more hints, an outcome is the same or gives more keys. -/
theorem Outcome.widens {hints more : List Hint} (hmore : hints.Sublist more) {text : List Char}
    {nspace : String} {p : Property} {f g : Finding} (hf : Outcome hints text nspace p f)
    (hg : Outcome more text nspace p g) : Widens f g := by
  have hkind {k l : NoteKind} (h : k = .resolved ↔ l = .resolved) :
      List.Forall₂ Persists [⟨k, fullKey nspace p.text⟩] [⟨l, fullKey nspace p.text⟩] :=
    .cons ⟨rfl, h⟩ .nil
  cases hf with
  | resolved hkey =>
    cases hg with
    | resolved hkey' =>
      obtain rfl := Option.some.inj (hkey.symm.trans hkey')
      exact .refl _
    | fallback hnone => simp [hkey] at hnone
    | unresolved hnone => simp [hkey] at hnone
  | fallback hnone hmarks =>
    cases hg with
    | resolved hkey => simp [hkey] at hnone
    | fallback => exact ⟨(hmore.filter _).flatMap _, forall₂_persists_refl _⟩
    | unresolved _ hall =>
      obtain ⟨hint, hm, hmark⟩ := hmarks
      exact absurd hmark (hall hint (hmore.subset hm))
  | unresolved hnone =>
    cases hg with
    | resolved hkey => simp [hkey] at hnone
    | fallback => exact ⟨List.nil_sublist _, hkind (by decide)⟩
    | unresolved => exact .refl _

theorem widens_propertyFinding (rules : ScanRules) {more : List Hint}
    (hmore : rules.hints.Sublist more) (text : List Char) (b : Bindings) (c : Call Property) :
    Widens (propertyFinding rules text b c)
      (propertyFinding { rules with hints := more } text b c) := by
  cases h : b.namespaceOf? c.identifier with
  | none =>
    rw [propertyFinding_unbound h, propertyFinding_unbound h]
    exact .refl _
  | some nspace =>
    exact (outcome_propertyFinding rules text h).widens hmore
      (outcome_propertyFinding { rules with hints := more } text h)

/-! ## The notes of a text -/

/-- What finds nothing adds nothing. -/
theorem all_map_filter {α : Type} {p : α → Bool} {f : α → Finding}
    (h : ∀ a, p a = false → f a = ⟨[], []⟩) (as : List α) :
    Finding.all (as.map f) = .all ((as.filter p).map f) := by
  induction as with
  | nil => rfl
  | cons a as ih =>
    simp only [Finding.all, Finding.mk.injEq] at ih ⊢
    cases ha : p a with
    | true => simp [ha, ih]
    | false => simp [ha, ih, h a ha]

/-- The calls with a property whose identifier is bound, from left to right, come each to one
outcome, with one note; the record gets what they come to and nothing else. Where there are
more hints no key is lost, and the notes of traced keys stay as they are. -/
theorem property_keys_are_noted (rules : ScanRules) (source : Source) (u : FileUsage) :
    let calls := (propertyCalls source.text).filter fun c =>
      (u.bindings.namespaceOf? c.identifier).isSome
    (∀ c, c ∈ calls ↔ (u.bindings.namespaceOf? c.identifier).isSome = true ∧
      IsWordText c.argument.owner.toList ∧ IsWordText c.argument.name.toList ∧
      CallsAfter source.text c.front c.identifier.toList c.argument.text.toList) ∧
    (calls.Pairwise fun c d => c.front.length < d.front.length) ∧
    (∃ findings, propertyKeys rules source u = u.add (.all findings) ∧
      List.Forall₂ (fun c f => ∃ nspace, u.bindings.namespaceOf? c.identifier = some nspace ∧
        Outcome rules.hints source.text nspace c.argument f) calls findings) ∧
    ∀ more, rules.hints.Sublist more →
      let v := propertyKeys { rules with hints := more } source u
      (propertyKeys rules source u).keys.Sublist v.keys ∧
        List.Forall₂ Persists (propertyKeys rules source u).notes v.notes := by
  intro calls
  refine ⟨fun c => ?_, (pairwise_callsOf _ _ _).filter _, ?_, fun more hmore => ?_⟩
  · rw [List.mem_filter, mem_propertyCalls_iff, and_comm]
  · refine ⟨calls.map (propertyFinding rules source.text u.bindings), ?_, ?_⟩
    · rw [propertyKeys_eq_add, all_map_filter fun c hc => propertyFinding_unbound ?_]
      simpa using hc
    · rw [List.forall₂_map_right_iff, List.forall₂_same]
      intro c hc
      obtain ⟨nspace, hnspace⟩ := Option.isSome_iff_exists.1 (List.mem_filter.1 hc).2
      exact ⟨nspace, hnspace, outcome_propertyFinding rules source.text hnspace⟩
  · have hwide := widens_all (widens_propertyFinding rules hmore source.text u.bindings)
      (propertyCalls source.text)
    rw [propertyKeys_eq_add, propertyKeys_eq_add]
    exact ⟨hwide.keys.append_left u.keys,
      List.rel_append (forall₂_persists_refl u.notes) hwide.notes⟩

/-- A property that is traced, and one that is not. -/
def navSource : Source :=
  ⟨"a.ts".toList, "const item = \x7b key: 'home' \x7d; t(item.key); t(link.key);".toList⟩

/-- A record in which the identifier of the two calls is bound. -/
def navUsage : FileUsage := (FileUsage.empty ⟨"a.ts"⟩).bind "t" "nav"

theorem property_keys_are_noted_home :
    let hint : Hint := ⟨["item"], ["about"]⟩
    [].Sublist [hint] ∧
      (propertyKeys ⟨[], [], [], ""⟩ navSource navUsage).keys.Sublist
        (propertyKeys ⟨[], [hint], [], ""⟩ navSource navUsage).keys ∧
      ∃ f g, propertyKeys ⟨[], [], [], ""⟩ navSource navUsage = navUsage.add (.all [f, g]) ∧
        Outcome [] navSource.text "nav" ⟨"item", "key"⟩ f ∧
        Outcome [] navSource.text "nav" ⟨"link", "key"⟩ g := by
  intro hint
  obtain ⟨-, -, ⟨findings, hadd, hfindings⟩, hwide⟩ :=
    property_keys_are_noted ⟨[], [], [], ""⟩ navSource navUsage
  have hcalls : ((propertyCalls navSource.text).filter fun c =>
      (navUsage.bindings.namespaceOf? c.identifier).isSome) =
        [⟨"const item = \x7b key: 'home' \x7d; ".toList, "t", ⟨"item", "key"⟩⟩,
          ⟨"const item = \x7b key: 'home' \x7d; t(item.key); ".toList, "t", ⟨"link", "key"⟩⟩] := by
    decide +kernel
  have hhint : [].Sublist [hint] := List.nil_sublist _
  rw [hcalls] at hfindings
  obtain ⟨f, rest, ⟨nspace, hnspace, hf⟩, hrest, rfl⟩ := List.forall₂_cons_left_iff.1 hfindings
  obtain ⟨g, rest, ⟨other, hother, hg⟩, hnil, rfl⟩ := List.forall₂_cons_left_iff.1 hrest
  cases hnil
  have hnav : navUsage.bindings.namespaceOf? "t" = some "nav" := by decide
  obtain rfl : "nav" = nspace := Option.some.inj (hnav.symm.trans hnspace)
  obtain rfl : "nav" = other := Option.some.inj (hnav.symm.trans hother)
  exact ⟨hhint, (hwide [hint] hhint).1, f, g, hadd, hf, hg⟩

end Scan

end CatalogAudit
