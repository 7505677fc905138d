import SecureReview.Json.Access
import SecureReview.Proofs.Context.Extraction
import SecureReview.Proofs.Text.Search
import SecureReview.Proofs.Text.Utf8
/-!
# Bytes and characters of a node

The ends of a node count bytes, and its text is cut out of the file by
counting characters. A character beyond ASCII has more than one byte, so
the cut is shifted by the **surplus** of bytes over characters before the
node, and lengthened by that inside it. What is cut out is the text of the
node **exactly if it is aligned** (`decoded_eq_textOf_iff`): the same text
stands again where the shift leads to, and either there is no surplus
inside or the file ends with the cut.
-/

namespace SecureReview

namespace Text

theorem encodeUtf8_append (s t : String) : encodeUtf8 (s ++ t) = encodeUtf8 s ++ encodeUtf8 t := by
  simp only [encodeUtf8_eq_flatMap, String.toList_append, List.flatMap_append]

/-- How many more bytes than characters a text has. -/
def surplus (s : String) : ℕ :=
  (encodeUtf8 s).length - s.length

theorem length_encodeUtf8 (s : String) : (encodeUtf8 s).length = s.length + surplus s := by
  suffices hle : s.length ≤ (encodeUtf8 s).length by
    rw [surplus]
    omega
  rw [encodeUtf8_eq_flatMap, ← String.length_toList]
  induction s.toList with
  | nil => exact Nat.le_refl 0
  | cons c t ih =>
    have hc := c.utf8Size_pos
    rw [List.flatMap_cons, List.length_append, String.length_utf8EncodeChar, List.length_cons]
    omega

/-- **A text in ASCII has no surplus.** -/
theorem surplus_of_ascii {s : String} (h : ∀ c ∈ s.toList, c.toNat < 128) : surplus s = 0 := by
  suffices hlength : (encodeUtf8 s).length = s.length by
    rw [surplus, hlength, Nat.sub_self]
  rw [encodeUtf8_eq_flatMap, ← String.length_toList]
  generalize s.toList = t at h
  induction t with
  | nil => rfl
  | cons c t ih =>
    obtain ⟨hc, ht⟩ := List.forall_mem_cons.1 h
    have hsize : (String.utf8EncodeChar c).length = 1 := by
      rw [utf8EncodeChar_eq, if_pos (by omega)]
      rfl
    rw [List.flatMap_cons, List.length_append, hsize, ih ht, List.length_cons, Nat.add_comm]

/-- A text in the middle, counted with a shift and too long by some. -/
theorem take_drop_shifted {α : Type} (before inside after : List α) (shift excess : ℕ) :
    ((before ++ inside ++ after).take (before.length + shift + (inside.length + excess))).drop
        (before.length + shift) =
      ((inside ++ after).drop shift).take (inside.length + excess) := by
  rw [List.drop_take, Nat.add_sub_cancel_left, List.append_assoc, List.drop_length_add_append]

/-- What is taken too long and after a shift is the text in the middle
exactly if this stands there again, and it ends there if too much is taken. -/
theorem take_drop_eq_iff {α : Type} {inside after : List α} {shift excess : ℕ}
    (hempty : inside = [] → excess = 0) :
    ((inside ++ after).drop shift).take (inside.length + excess) = inside ↔
      inside <+: (inside ++ after).drop shift ∧ (excess = 0 ∨ after.length = shift) := by
  have hlength : ((inside ++ after).drop shift).length = inside.length + after.length - shift := by
    rw [List.length_drop, List.length_append]
  constructor
  · intro h
    have hbegins := List.take_prefix (inside.length + excess) ((inside ++ after).drop shift)
    rw [h] at hbegins
    refine ⟨hbegins, ?_⟩
    have htaken := congrArg List.length h
    rw [List.length_take, hlength] at htaken
    cases inside with
    | nil => exact Or.inl (hempty rfl)
    | cons x inside =>
      rw [List.length_cons] at htaken
      omega
  · rintro ⟨⟨rest, hrest⟩, hexact⟩
    rw [← hrest]
    rcases hexact with rfl | rfl
    · exact List.take_left
    · have hnone : rest = [] := by
        have hlengths := congrArg List.length hrest
        rw [hlength, List.length_append] at hlengths
        exact List.length_eq_zero_iff.1 (by omega)
      rw [hnone, List.append_nil, List.take_of_length_le (Nat.le_add_right _ _)]

end Text

namespace Context

variable {source before inside after : String} {n : Node}

/-! ## Ranges of bytes -/

/-- The position in the bytes of a text is between two characters, or at one
of the ends. -/
def IsBoundary (source : String) (i : Int) : Prop :=
  ∃ before after, source = before ++ after ∧ i = (Text.encodeUtf8 before).length

/-- The bytes of a node are those of some characters of the text. -/
structure OnBoundaries (source : String) (n : Node) : Prop where
  start : IsBoundary source n.startByte
  stop : IsBoundary source n.stopByte
  ordered : n.startByte ≤ n.stopByte

theorem isBoundary_iff {i : Int} : IsBoundary source i ↔
    ∃ k ∈ List.range (source.length + 1), i = (Text.encodeUtf8 (Text.take source k)).length := by
  constructor
  · rintro ⟨before, after, rfl, rfl⟩
    have htake : Text.take (before ++ after) before.length = before := by
      rw [Text.take, String.toList_append, ← String.length_toList, List.take_left, String.ofList_toList]
    refine ⟨before.length, ?_, by rw [htake]⟩
    rw [List.mem_range, String.length_append]
    omega
  · rintro ⟨k, -, rfl⟩
    refine ⟨Text.take source k, Text.drop source k, ?_, rfl⟩
    rw [← String.toList_inj]
    simp [Text.take, Text.drop]

instance (source : String) (i : Int) : Decidable (IsBoundary source i) :=
  decidable_of_iff _ isBoundary_iff.symm

instance (source : String) (n : Node) : Decidable (OnBoundaries source n) :=
  decidable_of_iff
    (IsBoundary source n.startByte ∧ IsBoundary source n.stopByte ∧ n.startByte ≤ n.stopByte)
    ⟨fun h => ⟨h.1, h.2.1, h.2.2⟩, fun h => ⟨h.start, h.stop, h.ordered⟩⟩

/-- The bytes of a node, read as a text. -/
def decoded (source : String) (n : Node) : Except Text.EncodingFlaw String :=
  Text.decodeUtf8 (Text.slice (Text.encodeUtf8 source) n.startByte n.stopByte)

/-- The bytes of a node are those of the text in the middle of three. -/
structure Cuts (source : String) (n : Node) (before inside after : String) : Prop where
  text : source = before ++ inside ++ after
  start : n.startByte = (Text.encodeUtf8 before).length
  stop : n.stopByte = (Text.encodeUtf8 (before ++ inside)).length

theorem OnBoundaries.exists_cuts (h : OnBoundaries source n) :
    ∃ before inside after, Cuts source n before inside after := by
  obtain ⟨before, rest, hrest, hstart⟩ := h.start
  obtain ⟨upto, after, hafter, hstop⟩ := h.stop
  have hordered : (Text.encodeUtf8 before).length ≤ (Text.encodeUtf8 upto).length := by
    have hle := h.ordered
    rw [hstart, hstop] at hle
    exact_mod_cast hle
  have hbefore : before.toList <+: source.toList := by simp [hrest]
  have hupto : upto.toList <+: source.toList := by simp [hafter]
  suffices hbegins : before.toList <+: upto.toList by
    obtain ⟨inside, hinside⟩ := hbegins
    have hcut : upto = before ++ String.ofList inside := by
      rw [← String.toList_inj, ← hinside]
      simp
    exact ⟨before, String.ofList inside, after, by rw [hafter, hcut], hstart, by rw [hstop, hcut]⟩
  rcases List.prefix_or_prefix_of_prefix hbefore hupto with hbegins | ⟨more, hmore⟩
  · exact hbegins
  · -- what would be over has no bytes, and so no characters
    have hcut : before = upto ++ String.ofList more := by
      rw [← String.toList_inj, ← hmore]
      simp
    rw [hcut, Text.encodeUtf8_append, List.length_append, Text.length_encodeUtf8 (String.ofList more),
      String.length_ofList] at hordered
    have hnone : more = [] := List.length_eq_zero_iff.1 (by omega)
    rw [hcut, hnone]
    simp

/-- **The bytes of a node are read as the text in the middle.** -/
theorem Cuts.decoded_eq (h : Cuts source n before inside after) : decoded source n = .ok inside := by
  have hbytes : Text.encodeUtf8 source =
      Text.encodeUtf8 before ++ Text.encodeUtf8 inside ++ Text.encodeUtf8 after := by
    rw [h.text, Text.encodeUtf8_append, Text.encodeUtf8_append]
  have hstop : (Text.encodeUtf8 (before ++ inside)).length =
      (Text.encodeUtf8 before).length + 0 + ((Text.encodeUtf8 inside).length + 0) := by
    rw [Text.encodeUtf8_append, List.length_append, Nat.add_zero, Nat.add_zero]
  have hslice : Text.slice (Text.encodeUtf8 source) n.startByte n.stopByte = Text.encodeUtf8 inside := by
    rw [h.start, h.stop, Text.slice_natCast, hbytes, hstop]
    exact (Text.take_drop_shifted _ _ _ 0 0).trans List.take_left
  rw [decoded, hslice]
  exact Text.decodeUtf8_eq_ok_iff.2 rfl

/-! ## Characters in place of bytes -/

/-- The text in the middle of three stands again after a shift by the
surplus before it, and has no surplus itself or is there at the end. -/
def Realigned (before inside after : String) : Prop :=
  inside.toList <+: (inside ++ after).toList.drop (Text.surplus before) ∧
    (Text.surplus inside = 0 ∨ after.length = Text.surplus before)

theorem Cuts.textOf_eq_iff (h : Cuts source n before inside after) :
    textOf source.toList n = inside ↔ Realigned before inside after := by
  have htext : source.toList = before.toList ++ inside.toList ++ after.toList := by
    rw [h.text, String.toList_append, String.toList_append]
  have hstart : (Text.encodeUtf8 before).length = before.toList.length + Text.surplus before := by
    rw [String.length_toList, Text.length_encodeUtf8]
  have hstop : (Text.encodeUtf8 (before ++ inside)).length =
      before.toList.length + Text.surplus before + (inside.toList.length + Text.surplus inside) := by
    rw [Text.encodeUtf8_append, List.length_append, hstart, Text.length_encodeUtf8,
      String.length_toList, String.length_toList]
  have hempty : inside.toList = [] → Text.surplus inside = 0 := by
    intro hnil
    exact Text.surplus_of_ascii fun c hc => absurd hc (by simp [hnil])
  rw [textOf, h.start, h.stop, Text.slice_natCast, htext, hstart, hstop, Text.take_drop_shifted,
    ← String.toList_inj, String.toList_ofList, Text.take_drop_eq_iff hempty, Realigned,
    String.toList_append, String.length_toList]

/-- A node is aligned with a text: it cuts out a text that stands where its
bytes lead to if they are counted as characters. -/
def Aligned (source : String) (n : Node) : Prop :=
  ∃ before inside after, Cuts source n before inside after ∧ Realigned before inside after

/-- **The text of a node is that of its bytes exactly if it is aligned.** -/
theorem decoded_eq_textOf_iff (h : OnBoundaries source n) :
    decoded source n = .ok (textOf source.toList n) ↔ Aligned source n := by
  constructor
  · intro hdecoded
    obtain ⟨before, inside, after, hcuts⟩ := h.exists_cuts
    rw [hcuts.decoded_eq, Except.ok.injEq] at hdecoded
    exact ⟨before, inside, after, hcuts, hcuts.textOf_eq_iff.1 hdecoded.symm⟩
  · rintro ⟨before, inside, after, hcuts, hrealigned⟩
    rw [hcuts.decoded_eq, hcuts.textOf_eq_iff.2 hrealigned]

/-- **In a text in ASCII every node is aligned.** -/
theorem aligned_of_ascii (h : OnBoundaries source n) (hascii : ∀ c ∈ source.toList, c.toNat < 128) :
    Aligned source n := by
  obtain ⟨before, inside, after, hcuts⟩ := h.exists_cuts
  rw [hcuts.text, String.toList_append, String.toList_append] at hascii
  have hbefore : Text.surplus before = 0 := Text.surplus_of_ascii fun c hc => hascii c (by simp [hc])
  have hinside : Text.surplus inside = 0 := Text.surplus_of_ascii fun c hc => hascii c (by simp [hc])
  refine ⟨before, inside, after, hcuts, ?_, Or.inl hinside⟩
  rw [hbefore, List.drop_zero, String.toList_append]
  exact List.prefix_append _ _

/-! ## Contexts and imports -/

/-- **The context is cut at the right characters exactly if its node is
aligned**, and so is each import. Where the structure of a file leads to a
place, and the bytes of every node are those of some characters, the
context has the text of the bytes of the node that is shown exactly if this
node is aligned, and each of the first ten imports has that of its own node
exactly if that one is. In a text in ASCII all of them are. -/
theorem context_decoded_iff {path line : Json} {language : String} {w : World} {root : Node}
    {p : Place} (hleads : Leads path line language w source root p)
    (hnodes : ∀ q : Place, q.In root → OnBoundaries source q.node) (around : Int) :
    ∃ context w' n code imports,
      (extract path line language around).run.run w = (.ok context, w') ∧
      Shows (grammar language) p n ∧
      context.get? "context_code" = some (.str code) ∧
      (decoded source n = .ok code ↔ Aligned source n) ∧
      context.get? "imports" = some (Json.strings imports) ∧
      List.Forall₂ (fun m text => decoded source m = .ok text ↔ Aligned source m)
        ((collect (grammar language).imports root).take 10) imports ∧
      ((∀ c ∈ source.toList, c.toNat < 128) → ∀ q : Place, q.In root → Aligned source q.node) := by
  have hshows : Shows (grammar language) p (p.shown (grammar language)) := shows_iff.2 rfl
  obtain ⟨row, -, hfind⟩ := hleads.finds
  obtain ⟨q, hq, hnode⟩ := (found_of_findRow hfind).place.exists_of_mem_chain hshows.mem_chain
  have hcode : decoded source (p.shown (grammar language)) =
      .ok (textOf source.toList (p.shown (grammar language))) ↔
      Aligned source (p.shown (grammar language)) := decoded_eq_textOf_iff (hnode ▸ hnodes q hq)
  refine ⟨_, _, _, _, importsOf (grammar language) source.toList root, hleads.run_extract around,
    hshows, rfl, hcode, rfl, ?_, ?_⟩
  · rw [importsOf, ← List.map_take, List.forall₂_map_right_iff, List.forall₂_same]
    intro m hm
    obtain ⟨-, q, hq, rfl⟩ := mem_collect_iff.1 (List.mem_of_mem_take hm)
    exact decoded_eq_textOf_iff (hnodes q hq)
  · exact fun hascii q hq => aligned_of_ascii (hnodes q hq) hascii

/-- **A file is shown as a whole** at its last line, whatever its characters:
the cut is too long, but the file ends before it. -/
theorem context_decoded_of_whole_file :
    let source := "x = 'é'\n"
    let root : Node := .mk "module" 0 1 0 9 "" [.mk "expression_statement" 0 0 0 8 "" []]
    let w := worldOf "x.py" source root
    Leads (.str "x.py") (.int 2) "python" w source root ⟨root, []⟩ ∧
    (∀ q : Place, q.In root → OnBoundaries source q.node) ∧
    ∃ context w', (extract (.str "x.py") (.int 2) "python" 10).run.run w = (.ok context, w') ∧
      context.get? "context_code" = some (.str source) := by
  intro source root w
  have hread : readSource (.str "x.py") w.files = .ok source :=
    Run.except_toOption_eq_some.1 (by decide +kernel)
  have hleads : Leads (.str "x.py") (.int 2) "python" w source root ⟨root, []⟩ :=
    ⟨hread, by decide, rfl, .int 1, rfl, rfl⟩
  have hnodes : ∀ q : Place, q.In root → OnBoundaries source q.node := by
    simp only [root, forall_place_mk_iff (P := OnBoundaries source), List.forall_mem_cons,
      List.not_mem_nil, false_implies, implies_true, and_true]
    decide +kernel
  have hcuts : Cuts source root "" source "" := ⟨by decide, by decide +kernel, by decide +kernel⟩
  have haligned : Aligned source root :=
    ⟨"", source, "", hcuts, by decide +kernel, Or.inr (by decide +kernel)⟩
  obtain ⟨context, w', n, code, -, hrun, hshows, hcode, hdecoded, -⟩ :=
    context_decoded_iff hleads hnodes 10
  obtain rfl : root = n := shows_iff.1 hshows
  have hsource := hdecoded.2 haligned
  rw [hcuts.decoded_eq, Except.ok.injEq] at hsource
  exact ⟨hleads, hnodes, context, w', hrun, hsource ▸ hcode⟩

/-- An import under a comment with a letter of two bytes. -/
def importUnderComment : Node := .mk "import_statement" 1 1 5 14 "" []

/-- A function under such a comment. -/
def functionUnderComment : Node :=
  .mk "function_definition" 2 3 15 32 "" [
    .mk "identifier" 2 2 19 20 "f" [],
    .mk "pass_statement" 3 3 28 32 "" []]

/-- **One letter of two bytes shifts what follows**: the imports and the
function below it lose their first letters, and get a line end that is not
theirs, though the bytes of every node are those of some characters. -/
theorem context_loses_first_letter :
    let source := "# é\nimport os\ndef f():\n    pass\n"
    let root : Node := .mk "module" 0 4 0 33 "" [
      .mk "comment" 0 0 0 4 "" [], importUnderComment, functionUnderComment]
    let field := fun k =>
      ((extract (.str "a.py") (.int 4) "python" 10).run.run (worldOf "a.py" source root)).1.toOption.bind
        (·.get? k)
    (∀ q : Place, q.In root → OnBoundaries source q.node) ∧
    (field "context_type").bind Json.text? = some functionUnderComment.type ∧
    (field "context_code").bind Json.text? = some "ef f():\n    pass\n" ∧
    (decoded source functionUnderComment).toOption = some "def f():\n    pass" ∧
    (field "imports").map Json.texts = some ["mport os\n"] ∧
    (decoded source importUnderComment).toOption = some "import os" := by
  intro source root field
  refine ⟨?_, by decide +kernel, by decide +kernel, by decide +kernel, by decide +kernel,
    by decide +kernel⟩
  simp only [root, importUnderComment, functionUnderComment, forall_place_mk_iff (P := OnBoundaries source),
    List.forall_mem_cons, List.not_mem_nil, false_implies, implies_true, and_true]
  decide +kernel

end Context

end SecureReview
