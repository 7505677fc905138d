import SecureReview.Proofs.Context.Places
import SecureReview.Proofs.World.Frame
/-!
# The context of a line

Looking for a context reads a file and parses it, and **touches nothing
that parsing leaves alone** (`keeps_extract`). It cannot fail: where the
file, its parse or the line is of no use there is still a context, and it
is about that line (`exists_extract`). Where the structure of the file
leads to a place (`Leads`), the context is that of the node that is shown
for it, and else a window of lines. Either way **it includes the line**
(`extract_includes_line`).
-/

namespace SecureReview.Context

variable {path line context : Json} {language source : String} {around : Int} {w w' : World}
variable {root n : Node} {p : Place} {g g' : Grammar} {r : Except Failure Json}

/-! ## A run -/

/-- The context in the end: if none is found by the structure of a file
there are its lines, or there is the reason. -/
def orLines (path line : Json) (around : Int) (fs : Files) : Except Failure Json → Json
  | .ok context => context
  | .error e =>
    match readSource path fs >>= fun source => lineContext source line around with
    | .ok context => context
    | .error _ => .obj [("file", path), ("target_line", line), ("error", .str e.message)]

theorem run_extract (hrun : (structured path line language around).run.run w = (r, w')) :
    (extract path line language around).run.run w =
      (.ok (orLines path line around w'.files r), w') := by
  rw [extract, Run.run_bind, Run.run_tryCatch]
  cases r with
  | ok context =>
    rw [Run.run_bind_ok hrun]
    rfl
  | error e =>
    -- the file is read once more, for its lines
    rw [Run.run_bind_error hrun]
    dsimp only
    rw [Run.run_bind_ok Run.run_files, orLines]
    cases readSource path w'.files >>= fun source => lineContext source line around <;> rfl

/-- The context of a place, or of the lines if there is none. -/
def contextAt (path line : Json) (g : Grammar) (around : Int) (source : String) (root : Node) :
    Option Place → Except Failure Json
  | none => lineContext source line around
  | some p => .ok (treeContext path line source.toList g root p)

/-- The context of a line by the tree of its file. -/
def located (path line : Json) (g : Grammar) (around : Int) (source : String) (root : Node) :
    Except Failure Json :=
  rowOf line >>= fun row => contextAt path line g around source root (findRow row [] root)

theorem run_structured (hread : readSource path w.files = .ok source)
    (hparsed : isParsed language = true) :
    (structured path line language around).run.run w =
      (Run.parseSource >>= fun root =>
        Run.ofExcept (located path line (grammar language) around source root)).run.run w := by
  unfold structured
  rw [Run.run_bind_ok Run.run_files, hread, Run.run_bind_ok Run.run_ofExcept, if_neg (by simp [hparsed])]
  refine congrArg (fun f => (Run.parseSource >>= f).run.run w) (funext fun root => ?_)
  unfold located
  cases rowOf line with
  | error e => rfl
  | ok row =>
    have hrow : Run.ofExcept (.ok row) = pure row := rfl
    have hlocated : (Except.ok row >>= fun row =>
        contextAt path line (grammar language) around source root (findRow row [] root)) =
      contextAt path line (grammar language) around source root (findRow row [] root) := rfl
    rw [hrow, pure_bind, hlocated]
    cases findRow row [] root <;> rfl

theorem parseSource_eq_ok : Run.parseSource.run.run w = (.ok root, w') ↔
    w.trees.head? = some (.ok root) ∧ w' = { w with trees := w.trees.tail } := by
  obtain ⟨_, _, _, _, _, trees, _, _, _, _, _, _, _, _⟩ := w
  rcases trees with _ | ⟨_ | tree, trees⟩
  · exact iff_of_false (fun h => by cases (Prod.mk.inj h).1) fun h => by cases h.1
  · exact iff_of_false (fun h => by cases (Prod.mk.inj h).1) fun h => by cases h.1
  · constructor
    · intro h
      obtain ⟨htree, rfl⟩ := Prod.mk.inj h
      exact ⟨congrArg some (congrArg Except.ok (Except.ok.inj htree)), rfl⟩
    · rintro ⟨h, rfl⟩
      cases h
      rfl

/-! ## What a run leaves alone -/

variable {γ : Type} {part : World → γ}

theorem keeps_structured (hparse : Run.Keeps part Run.parseSource) (path line : Json)
    (language : String) (around : Int) :
    Run.Keeps part (structured path line language around) := by
  unfold structured
  refine Run.keeps_files.bind fun fs => (Run.keeps_ofExcept _).bind fun source => ?_
  split
  · exact Run.keeps_throw_bind _ _
  · refine hparse.bind fun root => (Run.keeps_ofExcept _).bind fun row => ?_
    split
    · exact Run.keeps_ofExcept _
    · exact Run.keeps_pure _

/-- **Looking for a context touches nothing** but what parsing touches. -/
theorem keeps_extract (hparse : Run.Keeps part Run.parseSource) (path line : Json)
    (language : String) (around : Int) :
    Run.Keeps part (extract path line language around) := by
  intro w
  obtain ⟨r, w', hrun⟩ : ∃ r w', (structured path line language around).run.run w = (r, w') :=
    ⟨_, _, rfl⟩
  have hkept := keeps_structured hparse path line language around w
  rw [hrun] at hkept
  rw [run_extract hrun]
  exact hkept

/-! ## Places that are led to -/

/-- The structure of a file leads to a place of a line: the file can be read
and parsed, and the line is found in the tree. -/
structure Leads (path line : Json) (language : String) (w : World) (source : String) (root : Node)
    (p : Place) : Prop where
  reads : readSource path w.files = .ok source
  parsed : isParsed language = true
  parses : w.trees.head? = some (.ok root)
  finds : ∃ row, rowOf line = .ok row ∧ findRow row [] root = some p

/-- **The context of a place that is led to** is that in the tree. -/
theorem Leads.run_extract (h : Leads path line language w source root p) (around : Int) :
    (extract path line language around).run.run w =
      (.ok (treeContext path line source.toList (grammar language) root p),
        { w with trees := w.trees.tail }) := by
  obtain ⟨row, hrow, hfind⟩ := h.finds
  have hlocated : located path line (grammar language) around source root =
      .ok (treeContext path line source.toList (grammar language) root p) := by
    rw [located, hrow]
    exact congrArg (contextAt path line (grammar language) around source root) hfind
  have hrun : (structured path line language around).run.run w =
      (.ok (treeContext path line source.toList (grammar language) root p),
        { w with trees := w.trees.tail }) := by
    rw [run_structured h.reads h.parsed, Run.run_bind_ok (parseSource_eq_ok.2 ⟨h.parses, rfl⟩), hlocated,
      Run.run_ofExcept]
  exact Context.run_extract hrun

/-- **A context that is found** is that of a place, or a window of lines. -/
theorem structured_eq_ok
    (h : (structured path line language around).run.run w = (.ok context, w')) :
    ∃ source,
      (∃ root p, Leads path line language w source root p ∧
        context = treeContext path line source.toList (grammar language) root p) ∨
      readSource path w.files = .ok source ∧ lineContext source line around = .ok context := by
  unfold structured at h
  obtain ⟨fs, w₁, hfiles, h⟩ := Run.bind_eq_ok.1 h
  obtain ⟨hfs, rfl⟩ := Prod.mk.inj hfiles
  obtain rfl := Except.ok.inj hfs
  obtain ⟨source, w₂, hsource, h⟩ := Run.bind_eq_ok.1 h
  obtain ⟨hread, rfl⟩ := Run.ofExcept_eq_ok.1 hsource
  refine ⟨source, ?_⟩
  by_cases hparsed : isParsed language = true
  · rw [if_neg (by simp [hparsed])] at h
    obtain ⟨root, w₃, hparse, h⟩ := Run.bind_eq_ok.1 h
    obtain ⟨row, w₄, hrun, h⟩ := Run.bind_eq_ok.1 h
    obtain ⟨hrow, rfl⟩ := Run.ofExcept_eq_ok.1 hrun
    cases hfind : findRow row [] root with
    | none =>
      rw [hfind] at h
      exact Or.inr ⟨hread, (Run.ofExcept_eq_ok.1 h).1⟩
    | some p =>
      rw [hfind] at h
      obtain rfl := Except.ok.inj (Prod.mk.inj h).1
      exact Or.inl ⟨root, p, ⟨hread, hparsed, (parseSource_eq_ok.1 hparse).1, row, hrow, hfind⟩, rfl⟩
  · rw [if_pos (by simp [hparsed])] at h
    cases h

theorem get?_target_of_lineContext (h : lineContext source line around = .ok context) :
    context.get? "target_line" = some line := by
  obtain ⟨window, -, h⟩ := Run.except_bind_eq_ok.1 h
  obtain rfl := Except.ok.inj h
  rfl

/-- **There is a context for every line**, whatever its file and the parser come to. -/
theorem exists_extract (path line : Json) (language : String) (around : Int) (w : World) :
    ∃ context w', (extract path line language around).run.run w = (.ok context, w') ∧
      context.get? "target_line" = some line := by
  obtain ⟨r, w', hrun⟩ : ∃ r w', (structured path line language around).run.run w = (r, w') :=
    ⟨_, _, rfl⟩
  refine ⟨_, w', run_extract hrun, ?_⟩
  cases r with
  | ok context =>
    rcases structured_eq_ok hrun with ⟨source, ⟨root, p, -, rfl⟩ | ⟨-, hlines⟩⟩
    · rfl
    · exact get?_target_of_lineContext hlines
  | error e =>
    rw [orLines]
    cases hlines : readSource path w'.files >>= fun source => lineContext source line around with
    | error e' => rfl
    | ok context =>
      obtain ⟨source, -, hcontext⟩ := Run.except_bind_eq_ok.1 hlines
      exact get?_target_of_lineContext hcontext

/-- **Without a place there are the lines** of a file that can be read. -/
theorem exists_lines (hread : readSource path w.files = .ok source)
    (hlines : lineContext source line around = .ok context)
    (hnot : ∀ root p, ¬ Leads path line language w source root p) :
    ∃ w', (extract path line language around).run.run w = (.ok context, w') := by
  obtain ⟨r, w', hrun⟩ : ∃ r w', (structured path line language around).run.run w = (r, w') :=
    ⟨_, _, rfl⟩
  suffices horLines : orLines path line around w'.files r = context from
    ⟨w', horLines ▸ run_extract hrun⟩
  cases r with
  | ok found =>
    obtain ⟨source', ⟨root, p, hleads, -⟩ | ⟨hread', hfound⟩⟩ := structured_eq_ok hrun
    · obtain rfl : source' = source := Except.ok.inj (hleads.reads.symm.trans hread)
      exact absurd hleads (hnot root p)
    · obtain rfl : source' = source := Except.ok.inj (hread'.symm.trans hread)
      exact Except.ok.inj (hfound.symm.trans hlines)
  | error e =>
    have hfiles : w'.files = w.files := by
      have hkept := keeps_structured Run.keeps_parseSource path line language around w
      rw [hrun] at hkept
      exact congrArg (fun s => s.2.1) hkept
    have hagain : (readSource path w'.files >>= fun source => lineContext source line around) =
        .ok context := by
      rw [hfiles, hread]
      exact hlines
    rw [orLines, hagain]

/-! ## The context includes the line -/

/-- The lines of a node include a line, counted from one. -/
def Spans (n : Node) (line : Int) : Prop :=
  n.startRow + 1 ≤ line ∧ line ≤ n.stopRow + 1

theorem covers_iff_spans {line : Int} :
    covers (.int (line - 1)) n.startRow n.stopRow = true ↔ Spans n line := by
  have hle : ∀ a b : Int, Num.le (.int a) (.int b) = true ↔ a ≤ b := by
    intro a b
    rw [Int.le_iff_lt_or_eq, ← Int.compare_eq_lt, ← Int.compare_eq_eq]
    simp [Num.le, Num.order]
  rw [covers, Bool.and_eq_true, hle, hle, Spans]
  omega

/-- The context tells the lines, the sort and the text of a node. -/
structure TellsOf (source : String) (context : Json) (n : Node) : Prop where
  start : context.get? "context_start_line" = some (.int (n.startRow + 1))
  stop : context.get? "context_end_line" = some (.int (n.stopRow + 1))
  type : context.get? "context_type" = some (.str n.type)
  code : context.get? "context_code" = some (.str (textOf source.toList n))

theorem tellsOf_treeContext (hshows : Shows g p n) :
    TellsOf source (treeContext path line source.toList g root p) n := by
  obtain rfl := shows_iff.1 hshows
  exact ⟨rfl, rfl, rfl, rfl⟩

/-- The window around a line of a text includes the line. -/
theorem window_includes {k : Nat} {line : Int} (hfirst : 1 ≤ line) (hlast : line ≤ k)
    (haround : 0 ≤ around) :
    (window k line around).skipped + 1 ≤ line ∧ line ≤ (window k line around).last := by
  simp only [window]
  omega

/-- **The context includes the line.** Whatever the language and whatever the
parser comes to, the context of a line of a file that can be read starts at
or before the line and ends at or after it. If there is a tree and it
includes the line, the context is that of the node shown for the place
that is found: the line is in none of the children there. -/
theorem extract_includes_line {line : Int} (hread : readSource path w.files = .ok source)
    (hfirst : 1 ≤ line) (hlast : line ≤ (Text.feedLines source.toList).length)
    (haround : 0 ≤ around) (language : String) :
    ∃ context w' start stop,
      (extract path (.int line) language around).run.run w = (.ok context, w') ∧
      context.get? "context_start_line" = some (.int start) ∧
      context.get? "context_end_line" = some (.int stop) ∧
      (start ≤ line ∧ line ≤ stop) ∧
      ∀ root, isParsed language = true → w.trees.head? = some (.ok root) → Spans root line →
        ∃ p n, findRow (.int (line - 1)) [] root = some p ∧ p.In root ∧ Spans p.node line ∧
          (∀ c ∈ p.node.children, ¬ Spans c line) ∧
          Shows (grammar language) p n ∧ TellsOf source context n := by
  by_cases hleads : ∃ root p, Leads path (.int line) language w source root p
  · obtain ⟨root, p, hleads⟩ := hleads
    obtain ⟨row, hrow, hfind⟩ := hleads.finds
    obtain rfl : (.int (line - 1) : Num) = row := Except.ok.inj hrow
    have hfound := found_of_findRow hfind
    have hspans : ∀ n ∈ p.chain, Spans n line := fun n hn => covers_iff_spans.1 (hfound.includes n hn)
    have hshows : Shows (grammar language) p (p.shown (grammar language)) := shows_iff.2 rfl
    have htells : TellsOf source (treeContext path (.int line) source.toList (grammar language) root p)
        (p.shown (grammar language)) := tellsOf_treeContext hshows
    refine ⟨_, _, _, _, hleads.run_extract around, htells.start, htells.stop,
      hspans _ hshows.mem_chain, ?_⟩
    intro root' _ hparses _
    obtain rfl : root = root' := by
      rw [hleads.parses] at hparses
      exact Except.ok.inj (Option.some.inj hparses)
    refine ⟨p, _, hfind, hfound.place, hspans _ List.mem_cons_self, ?_, hshows, htells⟩
    intro c hc hspan
    rw [← covers_iff_spans, hfound.innermost c hc] at hspan
    cases hspan
  · have hnot : ∀ root p, ¬ Leads path (.int line) language w source root p :=
      fun root p h => hleads ⟨root, p, h⟩
    have hlines : lineContext source (.int line) around = .ok _ := rfl
    obtain ⟨w', hrun⟩ := exists_lines hread hlines hnot
    refine ⟨_, w', _, _, hrun, rfl, rfl, window_includes hfirst hlast haround, ?_⟩
    intro root hparsed hparses hspan
    -- a tree that includes the line would lead to a place
    cases hfind : findRow (.int (line - 1)) [] root with
    | none =>
      rw [← covers_iff_spans, findRow_eq_none_iff.1 hfind] at hspan
      cases hspan
    | some p => exact absurd ⟨hread, hparsed, hparses, _, rfl, hfind⟩ (hnot root p)

/-- A world with one file and the tree that its parser gives. -/
def worldOf (path source : String) (root : Node) : World where
  files := { entries := [(path, Text.encodeUtf8 source)] }
  trees := [.ok root]

/-- A call in a method of a class. -/
def callInMethod : Node :=
  .mk "module" 0 3 0 38 "" [
    .mk "class_definition" 0 2 0 37 "" [
      .mk "identifier" 0 0 6 7 "K" [],
      .mk "function_definition" 1 2 13 37 "" [
        .mk "identifier" 1 1 17 18 "m" [],
        .mk "call" 2 2 34 37 "" []]]]

/-- **The context of a call in a method is the method.** -/
theorem extract_includes_call_in_method :
    let source := "class K:\n    def m(self):\n        f()\n"
    let w := worldOf "k.py" source callInMethod
    (readSource (.str "k.py") w.files = .ok source ∧ 3 ≤ (Text.feedLines source.toList).length) ∧
    ∃ context w' start stop,
      (extract (.str "k.py") (.int 3) "python" 0).run.run w = (.ok context, w') ∧
      context.get? "context_start_line" = some (.int start) ∧
      context.get? "context_end_line" = some (.int stop) ∧ (start ≤ 3 ∧ 3 ≤ stop) ∧
      context.get? "context_type" = some (.str "function_definition") := by
  intro source w
  have hread : readSource (.str "k.py") w.files = .ok source :=
    Run.except_toOption_eq_some.1 (by decide +kernel)
  have hlast : (3 : Int) ≤ (Text.feedLines source.toList).length := by decide +kernel
  obtain ⟨context, w', start, stop, hrun, hstart, hstop, hincludes, htree⟩ :=
    extract_includes_line hread (by decide) hlast (Int.le_refl 0) "python"
  obtain ⟨p, n, hfind, -, -, -, hshows, htells⟩ :=
    htree callInMethod (by decide) rfl ⟨by decide, by decide⟩
  have hn : n.type = "function_definition" := by
    obtain rfl := shows_iff.1 hshows
    obtain rfl := Option.some.inj hfind
    rfl
  exact ⟨⟨hread, by exact_mod_cast hlast⟩, context, w', start, stop, hrun, hstart, hstop, hincludes,
    hn ▸ htells.type⟩

end SecureReview.Context
