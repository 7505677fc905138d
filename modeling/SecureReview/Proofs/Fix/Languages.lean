import Mathlib.Data.List.TakeWhile
import SecureReview.Fix.Suggestion
import SecureReview.Proofs.World.Paths
/-!
# Languages of scanned and of fixed files

The scanners take the ending of a path as it is written, and the fixer that
of its last component. The two part only where the name of the file is
nothing but dots before its ending, or has nothing behind its last dot:
**an ending that the scanners know is the fixer's too**
(`suffix_eq_extension`). So the two agree on the language of a file where
their tables do, and of the endings that the scanners know the fixer
lacks two.
-/

namespace SecureReview

namespace Path

variable {p : String} {s u : List Char}

/-! ## What is behind the last slash -/

/-- The part of a path behind its last slash. -/
def fileName (t : List Char) : List Char :=
  (t.reverse.takeWhile (· != '/')).reverse

theorem fileName_cases (t : List Char) :
    '/' ∉ fileName t ∧ (t = fileName t ∨ ∃ front, t = front ++ '/' :: fileName t) := by
  have hparts := congrArg List.reverse
    (List.takeWhile_append_dropWhile (p := (· != '/')) (l := t.reverse))
  rw [List.reverse_append, List.reverse_reverse, ← fileName] at hparts
  constructor
  · rw [fileName, List.mem_reverse]
    intro hmem
    exact absurd (List.mem_takeWhile_imp hmem) (by simp)
  · cases hrest : t.reverse.dropWhile (· != '/') with
    | nil =>
      rw [hrest] at hparts
      exact Or.inl hparts.symm
    | cons c rest =>
      have hc : c = '/' := by
        have hfirst := List.head?_dropWhile_not (· != '/') t.reverse
        rw [hrest] at hfirst
        simpa using hfirst
      rw [hrest, hc, List.reverse_cons, List.append_assoc] at hparts
      exact Or.inr ⟨rest.reverse, hparts.symm⟩

/-- **A name with something in it is the last component.** -/
theorem name_eq_fileName (h : IsComponent (String.ofList (fileName p.toList))) :
    name p = String.ofList (fileName p.toList) := by
  have hsplit : ∃ parts, Text.split p "/" = parts ++ [String.ofList (fileName p.toList)] := by
    obtain ⟨hlast, hall | ⟨front, hfront⟩⟩ := fileName_cases p.toList
    · have hpieces : Text.splitAtEach "/".toList p.toList = [fileName p.toList] := by
        have hone := Text.splitAtEach_of_not_mem hlast
        rw [← hall] at hone ⊢
        exact hone
      exact ⟨[], by rw [Text.split, hpieces, List.map_singleton, List.nil_append]⟩
    · have hpieces : Text.splitAtEach "/".toList p.toList =
          Text.splitAtEach ['/'] front ++ [fileName p.toList] := by
        rw [← Text.splitAtEach_of_not_mem hlast, ← Text.splitAtEach_append_cons, ← hfront]
        rfl
      exact ⟨_, by rw [Text.split, hpieces, List.map_append, List.map_singleton]⟩
  obtain ⟨parts, hparts⟩ := hsplit
  rw [name, components, hparts, List.filter_append, List.filter_cons_of_pos (by simpa using h.2),
    List.filter_nil, List.getLast?_concat, Option.getD_some]

/-! ## Endings -/

/-- **An ending as written** begins with the last dot of the name, and there is more in the name
before it than dots. -/
theorem exists_of_extension (h : extension p ≠ "") :
    ∃ s u, fileName p.toList = s ++ '.' :: u ∧ '.' ∉ u ∧ (∃ c ∈ s, c ≠ '.') ∧
      extension p = String.ofList ('.' :: u) := by
  have hext : extension p =
      (Text.lastIndex? '.' ((fileName p.toList).dropWhile (· == '.'))).elim "" fun i =>
        String.ofList (((fileName p.toList).dropWhile (· == '.')).drop i) := by
    unfold extension fileName
    dsimp only
    split
    · next i hi =>
      rw [hi]
      rfl
    · next hnone =>
      rw [hnone]
      rfl
  have hdots := List.takeWhile_append_dropWhile (p := (· == '.')) (l := fileName p.toList)
  generalize hrest : (fileName p.toList).dropWhile (· == '.') = rest at hext hdots
  cases hlast : Text.lastIndex? '.' rest with
  | none =>
    rw [hlast] at hext
    exact absurd hext h
  | some i =>
    obtain ⟨s, u, rfl, hu, rfl⟩ := Text.lastIndex?_eq_some_iff.1 hlast
    rw [hlast] at hext
    simp only [Option.elim_some, List.drop_left] at hext
    refine ⟨_ ++ s, u, by rw [List.append_assoc, hdots], hu, ?_, hext⟩
    -- what is left after the dots in front does not begin with one
    cases s with
    | nil =>
      have hfirst := List.head?_dropWhile_not (· == '.') (fileName p.toList)
      rw [hrest] at hfirst
      simp at hfirst
    | cons c s =>
      have hfirst := List.head?_dropWhile_not (· == '.') (fileName p.toList)
      rw [hrest] at hfirst
      exact ⟨c, by simp, by simpa using hfirst⟩

theorem suffixOfName_ofList (hu : '.' ∉ u) (hs : s ≠ []) (hne : u ≠ []) :
    suffixOfName (String.ofList (s ++ '.' :: u)) = String.ofList ('.' :: u) := by
  have hbefore : 0 < s.length := List.length_pos_iff.2 hs
  have hbehind : s.length + 1 < (s ++ '.' :: u).length := by
    have hpos := List.length_pos_iff.2 hne
    simp only [List.length_append, List.length_cons]
    omega
  rw [suffixOfName, String.toList_ofList, Text.lastIndex?_append_cons hu]
  simp only [String.length_ofList]
  rw [if_pos (by rw [decide_eq_true hbefore, decide_eq_true hbehind]; rfl), Text.drop, String.toList_ofList, List.drop_left]

/-- **The two endings of a path are one** where the ending as written is there and more than a
dot. -/
theorem suffix_eq_extension (h : extension p ≠ "") (hdot : extension p ≠ ".") :
    suffix p = extension p := by
  obtain ⟨s, u, hname, hu, ⟨c, hc, hcdot⟩, hext⟩ := exists_of_extension h
  have hshort : ∀ t : String, (∀ x ∈ t.toList, x = '.') → String.ofList (fileName p.toList) ≠ t := by
    rintro t ht rfl
    rw [String.toList_ofList, hname] at ht
    exact hcdot (ht c (List.mem_append_left _ hc))
  have hcomponent : IsComponent (String.ofList (fileName p.toList)) := by
    refine ⟨?_, hshort "" (by simp), hshort "." (by simp)⟩
    rw [String.toList_ofList]
    exact (fileName_cases p.toList).1
  have hne : u ≠ [] := by
    rintro rfl
    exact hdot hext
  rw [suffix, name_eq_fileName hcomponent, hname,
    suffixOfName_ofList hu (List.ne_nil_of_mem hc) hne, hext]

end Path

/-! ## The two tables -/

namespace Language

variable {path language e : String}

/-- An ending that the scanners know has the same language for the fixer, but for two that the fixer
does not know. -/
theorem lookup_fixerEndings (h : scannerEndings.lookup e = some language) :
    (e ∉ [".jsx", ".tsx"] ∧ fixerEndings.lookup e = some language) ∨
      (e ∈ [".jsx", ".tsx"] ∧ fixerEndings.lookup e = none ∧
        ∃ rule t, FixTemplate.forRule? rule language = some t) := by
  have hmem : (e, language) ∈ scannerEndings := by
    obtain ⟨l₁, l₂, hsplit, -⟩ := List.lookup_eq_some_iff.1 h
    rw [hsplit]
    simp
  simp only [scannerEndings, List.mem_cons, Prod.mk.injEq, List.not_mem_nil, or_false] at hmem
  rcases hmem with ⟨rfl, rfl⟩ | ⟨rfl, rfl⟩ | ⟨rfl, rfl⟩ | ⟨rfl, rfl⟩ | ⟨rfl, rfl⟩ | ⟨rfl, rfl⟩ |
    ⟨rfl, rfl⟩
  · exact Or.inl ⟨by decide, rfl⟩
  · exact Or.inl ⟨by decide, rfl⟩
  · exact Or.inr ⟨by decide, rfl, "no-eval", _, rfl⟩
  · exact Or.inl ⟨by decide, rfl⟩
  · exact Or.inr ⟨by decide, rfl, "no-eval", _, rfl⟩
  · exact Or.inl ⟨by decide, rfl⟩
  · exact Or.inl ⟨by decide, rfl⟩

/-- For the endings that the scanners know, the fixer looks up the same ending. -/
theorem ofFixed_of_scanned (h : ofScanned? path = some language) :
    ofFixed path = (fixerEndings.lookup (Text.lower (Path.extension path))).getD "unknown" := by
  have hunknown : ∀ ending, scannerEndings.lookup (Text.lower ending) = none →
      Path.extension path ≠ ending := by
    rintro ending hnone rfl
    rw [ofScanned?, hnone] at h
    cases h
  rw [ofFixed, Path.suffix_eq_extension (hunknown "" rfl) (hunknown "." rfl)]

/-- The fixer finds the templates of a language for the findings in a file. -/
def FindsTemplates (path language : String) : Prop :=
  ∀ finding rule, finding.getD "file" (.str "") = .ok (.str path) →
    finding.getD "rule_id" (.str "") = .ok (.str rule) →
    FixEngine.templateFor? finding = .ok (FixTemplate.forRule? rule language)

theorem templateFor?_eq {finding : Json} {rule : String}
    (hfile : finding.getD "file" (.str "") = .ok (.str path))
    (hrule : finding.getD "rule_id" (.str "") = .ok (.str rule)) :
    FixEngine.templateFor? finding = .ok (FixTemplate.forRule? rule (ofFixed path)) := by
  rw [FixEngine.templateFor?, hrule, hfile]
  rfl

theorem forRule?_unknown (rule : String) : FixTemplate.forRule? rule "unknown" = none := by
  have hnone : ∀ t ∈ FixTemplate.all, "unknown" ∉ t.languages := by decide
  rw [FixTemplate.forRule?, List.find?_eq_none]
  intro t ht
  simp [hnone t ht]

/-- **When the fixer agrees with the scanners.** A file that is scanned as one of a language is fixed
as one of that language exactly if its ending, in lower case, is not one of the two that the fixer
lacks; exactly then do the templates of the language serve for the findings in the file. A file with
one of the two endings is of no known language to the fixer. -/
theorem ofFixed_eq_iff (h : ofScanned? path = some language) :
    (ofFixed path = language ↔ Text.lower (Path.extension path) ∉ [".jsx", ".tsx"]) ∧
    (FindsTemplates path language ↔ Text.lower (Path.extension path) ∉ [".jsx", ".tsx"]) ∧
    (Text.lower (Path.extension path) ∈ [".jsx", ".tsx"] → ofFixed path = "unknown") := by
  have hfixed := ofFixed_of_scanned h
  rcases lookup_fixerEndings h with ⟨hknown, hlookup⟩ | ⟨hlacking, hlookup, rule, t, ht⟩
  · rw [hlookup, Option.getD_some] at hfixed
    refine ⟨iff_of_true hfixed hknown, iff_of_true ?_ hknown, fun hin => absurd hin hknown⟩
    intro finding rule hfile hrule
    rw [templateFor?_eq hfile hrule, hfixed]
  · rw [hlookup, Option.getD_none] at hfixed
    have hlost : ¬ FindsTemplates path language := by
      intro hfinds
      have hfound := hfinds (.obj [("rule_id", .str rule), ("file", .str path)]) rule rfl rfl
      rw [templateFor?_eq rfl rfl, hfixed, forRule?_unknown, ht] at hfound
      cases hfound
    have hother : ofFixed path ≠ language := by
      intro hsame
      rw [← hsame, hfixed, forRule?_unknown] at ht
      cases ht
    exact ⟨iff_of_false hother fun hnot => hnot hlacking,
      iff_of_false hlost fun hnot => hnot hlacking, fun _ => hfixed⟩

/-- A hidden file with two dots and capitals in its ending. -/
theorem ofFixed_of_capitals : ofScanned? "src/.app.test.JS" = some "javascript" ∧
    ofFixed "src/.app.test.JS" = "javascript" ∧ FindsTemplates "src/.app.test.JS" "javascript" := by
  have hscanned : ofScanned? "src/.app.test.JS" = some "javascript" := by decide
  have hending : Text.lower (Path.extension "src/.app.test.JS") ∉ [".jsx", ".tsx"] := by decide
  obtain ⟨hfixed, hfinds, -⟩ := ofFixed_eq_iff hscanned
  exact ⟨hscanned, hfixed.2 hending, hfinds.2 hending⟩

/-- **A component file is scanned and not known to the fixer**, which has a template for the rule. -/
theorem ofFixed_misses_component : ofScanned? "test.jsx" = some "javascript" ∧
    ofFixed "test.jsx" = "unknown" ∧
    (FixTemplate.forRule? "react/no-danger" "javascript").isSome = true ∧
    (FixTemplate.forRule? "react/no-danger" (ofFixed "test.jsx")).isSome = false := by
  decide

end Language

end SecureReview
