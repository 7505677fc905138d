import SecureReview.Json.Access
import SecureReview.Proofs.Context.Extraction
/-!
# The short name of a language

The short name leads to the same place in the tree as the full one, but it
has a grammar of its own, in which nothing is an import, a function or a
class. So the context is the same **exactly where the full grammar marks
nothing** (`short_name_agrees_iff`): if the node of the place is the one
that is shown, no function or class around it has a name, and there are
no imports.
-/

namespace SecureReview.Context

variable {path line : Json} {language source : String} {around : Int} {w : World}
variable {root n : Node} {p : Place} {g g' : Grammar}

/-- Nothing in a tree is marked by a grammar, as seen from a place: the node
of the place is what is shown, no function or class around it has a name,
and there are no imports. -/
structure Unmarked (g : Grammar) (root : Node) (p : Place) : Prop where
  shown : Shows g p p.node
  functions : ∀ n, Nearest g.functions p.chain n → nameOf? n = none
  classes : ∀ n, Nearest g.classes p.chain n → nameOf? n = none
  imports : ∀ q : Place, q.In root → q.node.type ∉ g.imports

theorem ofString?_eq_null_iff {types : List String} :
    Json.ofString? ((p.enclosing? types).bind nameOf?) = .null ↔
      ∀ n, Nearest types p.chain n → nameOf? n = none := by
  have hnull : ∀ o : Option String, Json.ofString? o = .null ↔ o = none := by
    intro o
    cases o <;> simp [Json.ofString?]
  rw [hnull, Option.bind_eq_none_iff]
  simp only [enclosing?_eq_some_iff]

theorem importsOf_eq_nil_iff {source : List Char} :
    importsOf g source root = [] ↔ ∀ q : Place, q.In root → q.node.type ∉ g.imports := by
  have hcollect : importsOf g source root = [] ↔ ∀ n, n ∉ collect g.imports root := by
    rw [importsOf, ← List.eq_nil_iff_forall_not_mem]
    simp
  rw [hcollect]
  simp only [mem_collect_iff, not_and, not_exists]
  constructor
  · intro h q hq htype
    exact h q.node htype q hq rfl
  · rintro h n htype q hq rfl
    exact h q hq htype

/-- Without a grammar the node of a place is shown. -/
theorem shown_bare (p : Place) : p.shown {} = p.node := by
  refine shows_iff.1 (.alone ?_ ?_ rfl)
  · exact fun _ _ => List.not_mem_nil
  · exact fun _ _ => List.not_mem_nil

/-- A node that is shown and is of the sort of the place's node can be the place's node. -/
theorem shows_self_of_type (hshows : Shows g p n) (htype : n.type = p.node.type) : Shows g p p.node := by
  have hnearest : ∀ types, Nearest types p.chain n → Nearest types p.chain p.node := by
    rintro types ⟨-, -, -, hn, -⟩
    exact ⟨[], p.above, rfl, htype ▸ hn, List.forall_mem_nil _⟩
  cases hshows with
  | inFunction h => exact .inFunction (hnearest _ h)
  | inClass hfunctions h => exact .inClass hfunctions (hnearest _ h)
  | alone hfunctions hclasses hself => exact .alone hfunctions hclasses rfl

/-- **A grammar makes no difference to a context** exactly if nothing is
marked by it. -/
theorem treeContext_bare_eq_iff {source : List Char} :
    treeContext path line source {} root p = treeContext path line source g root p ↔
      Unmarked g root p := by
  have hnone : p.enclosing? [] = none := enclosing?_eq_none_iff.2 fun _ _ => List.not_mem_nil
  have himports : importsOf {} source root = [] :=
    importsOf_eq_nil_iff.2 fun _ _ => List.not_mem_nil
  constructor
  · intro h
    have hfield : ∀ k, (treeContext path line source {} root p).get? k =
        (treeContext path line source g root p).get? k := fun k => congrArg (Json.get? · k) h
    have htype : some (Json.str (p.shown {}).type) = some (Json.str (p.shown g).type) :=
      hfield "context_type"
    have hfunction : some (Json.ofString? ((p.enclosing? []).bind nameOf?)) =
        some (Json.ofString? ((p.enclosing? g.functions).bind nameOf?)) := hfield "function_name"
    have hclass : some (Json.ofString? ((p.enclosing? []).bind nameOf?)) =
        some (Json.ofString? ((p.enclosing? g.classes).bind nameOf?)) := hfield "class_name"
    have hlisted : some (Json.strings (importsOf {} source root)) =
        some (Json.strings (importsOf g source root)) := hfield "imports"
    rw [hnone] at hfunction hclass
    rw [himports] at hlisted
    rw [shown_bare] at htype
    have hlist : (importsOf g source root).map Json.str = [] :=
      (Json.arr.inj (Option.some.inj hlisted)).symm
    exact ⟨shows_self_of_type (shows_iff.2 rfl) (Json.str.inj (Option.some.inj htype)).symm,
      ofString?_eq_null_iff.1 (Option.some.inj hfunction).symm,
      ofString?_eq_null_iff.1 (Option.some.inj hclass).symm,
      importsOf_eq_nil_iff.1 (List.map_eq_nil_iff.1 hlist)⟩
  · intro h
    rw [treeContext, treeContext, shown_bare, shows_iff.1 h.shown, himports,
      importsOf_eq_nil_iff.2 h.imports, ofString?_eq_null_iff.2 h.functions,
      ofString?_eq_null_iff.2 h.classes, hnone]
    rfl

theorem grammar_of_short (h : Text.lower language = "js") : grammar language = {} := by
  rw [grammar, h]
  rfl

theorem grammar_of_full (h : Text.lower language = "javascript") :
    grammar language = javascript := by
  rw [grammar, h]
  rfl

/-- There is one place that is led to. -/
theorem Leads.unique {source' : String} {root' : Node} {p' : Place}
    (h : Leads path line language w source root p)
    (h' : Leads path line language w source' root' p') : root = root' ∧ p = p' := by
  obtain ⟨row, hrow, hfind⟩ := h.finds
  obtain ⟨row', hrow', hfind'⟩ := h'.finds
  obtain rfl : row = row' := Except.ok.inj (hrow.symm.trans hrow')
  obtain rfl : root = root' := Except.ok.inj (Option.some.inj (h.parses.symm.trans h'.parses))
  exact ⟨rfl, Option.some.inj (hfind.symm.trans hfind')⟩

/-- Another language that can be parsed leads to the same places. -/
theorem Leads.of_parsed {language' : String} (h : Leads path line language w source root p)
    (hparsed : isParsed language' = true) : Leads path line language' w source root p :=
  ⟨h.reads, hparsed, h.parses, h.finds⟩

theorem located_of_not_leads (hread : readSource path w.files = .ok source)
    (hparsed : isParsed language = true) (hparses : w.trees.head? = some (.ok root))
    (hnot : ∀ p, ¬ Leads path line language w source root p) :
    located path line g around source root = located path line g' around source root := by
  unfold located
  cases hrow : rowOf line with
  | error e => rfl
  | ok row =>
    have hnone : findRow row [] root = none :=
      Option.eq_none_iff_forall_ne_some.2 fun p hfind =>
        hnot p ⟨hread, hparsed, hparses, row, hrow, hfind⟩
    refine (congrArg (contextAt path line g around source root) hnone).trans ?_
    exact (congrArg (contextAt path line g' around source root) hnone).symm

/-- **Without a place the language makes no difference**, as long as it can be parsed. -/
theorem run_structured_of_not_leads {language' : String} (hparsed : isParsed language = true)
    (hparsed' : isParsed language' = true)
    (hnot : ∀ source root p, ¬ Leads path line language w source root p) :
    (structured path line language around).run.run w =
      (structured path line language' around).run.run w := by
  cases hread : readSource path w.files with
  | error e =>
    have hfails : ∀ l, (structured path line l around).run.run w = (.error e, w) := by
      intro l
      rw [structured, Run.run_bind_ok Run.run_files, hread]
      exact Run.run_bind_error Run.run_ofExcept
    rw [hfails, hfails]
  | ok source =>
    rw [run_structured hread hparsed, run_structured hread hparsed', Run.run_bind, Run.run_bind]
    rcases hparse : Run.parseSource.run.run w with ⟨e | root, w'⟩
    · rfl
    · dsimp only
      rw [located_of_not_leads hread hparsed (parseSource_eq_ok.1 hparse).1 (hnot source root)]

/-- **The short name of a language agrees with the full one** exactly where
the grammar marks nothing. Whatever the file, the line, the size of the
window and the parser come to, the context under the short name is that
under the full name if no place is led to, and else exactly if the tree is
unmarked as seen from the place. -/
theorem short_name_agrees_iff {short : String} (hshort : Text.lower short = "js")
    (hfull : Text.lower language = "javascript") (path line : Json) (around : Int) (w : World) :
    ((extract path line short around).run.run w).1 =
        ((extract path line language around).run.run w).1 ↔
      ∀ source root p, Leads path line language w source root p → Unmarked javascript root p := by
  have hparsed : isParsed short = true := by
    rw [isParsed, hshort]
    rfl
  have hparsed' : isParsed language = true := by
    rw [isParsed, hfull]
    rfl
  by_cases hleads : ∃ source root p, Leads path line language w source root p
  · obtain ⟨source, root, p, hleads⟩ := hleads
    rw [hleads.run_extract, (hleads.of_parsed hparsed).run_extract, grammar_of_short hshort,
      grammar_of_full hfull, Except.ok.injEq, treeContext_bare_eq_iff]
    constructor
    · -- there is one place that is led to
      intro hunmarked source' root' p' hleads'
      obtain ⟨rfl, rfl⟩ := hleads.unique hleads'
      exact hunmarked
    · exact fun hunmarked => hunmarked source root p hleads
  · have hnot : ∀ source root p, ¬ Leads path line short w source root p :=
      fun source root p h => hleads ⟨source, root, p, h.of_parsed hparsed'⟩
    obtain ⟨r, w', hrun⟩ : ∃ r w', (structured path line short around).run.run w = (r, w') :=
      ⟨_, _, rfl⟩
    have hrun' := (run_structured_of_not_leads hparsed hparsed' hnot).symm.trans hrun
    rw [run_extract hrun, run_extract hrun']
    exact iff_of_true rfl fun source root p h => absurd (h.of_parsed hparsed) (hnot source root p)

/-- **A call on its own is shown alike** under both names, in any letter case. -/
theorem short_name_agrees_on_call :
    let root : Node := .mk "program" 0 1 0 4 "" [.mk "call_expression" 0 0 0 3 "" []]
    let w := worldOf "a.js" "f()\n" root
    (Text.lower "JS" = "js" ∧ Text.lower "JavaScript" = "javascript") ∧
    ((extract (.str "a.js") (.int 1) "JS" 10).run.run w).1 =
      ((extract (.str "a.js") (.int 1) "JavaScript" 10).run.run w).1 := by
  intro root w
  have hshort : Text.lower "JS" = "js" := by decide
  have hfull : Text.lower "JavaScript" = "javascript" := by decide
  refine ⟨⟨hshort, hfull⟩, (short_name_agrees_iff hshort hfull _ _ _ w).2 ?_⟩
  intro source root' p hleads
  obtain ⟨row, hrow, hfind⟩ := hleads.finds
  obtain rfl : root = root' := Except.ok.inj (Option.some.inj hleads.parses)
  obtain rfl := Except.ok.inj hrow
  obtain rfl := Option.some.inj hfind
  have himports : importsOf javascript [] root = [] := rfl
  exact ⟨.alone (enclosing?_eq_none_iff.1 rfl) (enclosing?_eq_none_iff.1 rfl) rfl,
    ofString?_eq_null_iff.1 rfl, ofString?_eq_null_iff.1 rfl, importsOf_eq_nil_iff.1 himports⟩

/-- A call in a function, under an import. -/
def callInFunction : Node :=
  .mk "program" 0 4 0 32 "" [
    .mk "import_statement" 0 0 0 8 "" [],
    .mk "function_declaration" 1 3 9 31 "" [
      .mk "identifier" 1 1 18 19 "f" [],
      .mk "call_expression" 2 2 26 29 "" []]]

/-- **The short name loses the function around a call**, and so the contexts
under the two names differ. -/
theorem short_name_loses_function :
    let w := worldOf "a.js" "import a\nfunction f() \x7b\n  g()\n\x7d\n" callInFunction
    let result := fun language => ((extract (.str "a.js") (.int 3) language 10).run.run w).1
    let type := fun r : Except Failure Json =>
      (r.toOption.bind (·.get? "context_type")).bind Json.text?
    type (result "js") = some "call_expression" ∧
    type (result "javascript") = some "function_declaration" ∧
    result "js" ≠ result "javascript" := by
  intro w result type
  have hshort : type (result "js") = some "call_expression" := by decide +kernel
  have hfull : type (result "javascript") = some "function_declaration" := by decide +kernel
  refine ⟨hshort, hfull, fun hsame => ?_⟩
  rw [hsame, hfull] at hshort
  revert hshort
  decide

end SecureReview.Context
