import SecureReview.Context.Extract
/-!
# Places in a syntax tree

A place of a tree is a node with the nodes above it (`Place.In`). The search
for a row goes down from the top through nodes that include the row, and
ends at one **none of whose children includes it** (`found_of_findRow`). So
every node above the place includes the row too, whichever of them is
shown: the nearest function, else the nearest class, else the node itself
(`shows_iff`). The nodes that are collected from a tree are those at its
places (`mem_collect_iff`).
-/

namespace SecureReview

/-- **What holds of a node if it holds of its children** holds of every node. -/
theorem Node.induct {P : Node → Prop} (step : ∀ n : Node, (∀ c ∈ n.children, P c) → P n)
    (n : Node) : P n := by
  obtain ⟨type, startRow, stopRow, startByte, stopByte, text, children⟩ := n
  refine step _ fun c hc => ?_
  have hsmaller : sizeOf c < sizeOf children := List.sizeOf_lt_of_mem hc
  exact Node.induct step c
termination_by sizeOf n
decreasing_by
  simp only [Node.mk.sizeOf_spec]
  omega

namespace Context

variable {row : Num} {root n : Node} {above : List Node} {p q : Place} {types : List String}
variable {g : Grammar}

/-! ## The searches, over the children of a node -/

theorem findRowIn_eq (row : Num) (above ns : List Node) :
    findRowIn row above ns = ns.findSome? (findRow row above) := by
  induction ns with
  | nil => rfl
  | cons n ns ih =>
    rw [findRowIn, List.findSome?_cons, ih]
    cases findRow row above n <;> rfl

theorem findRow_eq (row : Num) (above : List Node) (n : Node) :
    findRow row above n =
      if covers row n.startRow n.stopRow then
        some ((n.children.findSome? (findRow row (n :: above))).getD ⟨n, above⟩)
      else none := by
  obtain ⟨type, startRow, stopRow, startByte, stopByte, text, children⟩ := n
  rw [findRow, findRowIn_eq]
  dsimp only [Node.startRow, Node.stopRow, Node.children]
  cases children.findSome? _ <;> rfl

theorem collectIn_eq (types : List String) (ns : List Node) :
    collectIn types ns = ns.flatMap (collect types) := by
  induction ns with
  | nil => rfl
  | cons n ns ih => rw [collectIn, List.flatMap_cons, ih]

theorem mem_collect_iff_children :
    n ∈ collect types root ↔
      n = root ∧ root.type ∈ types ∨ ∃ c ∈ root.children, n ∈ collect types c := by
  obtain ⟨type, startRow, stopRow, startByte, stopByte, text, children⟩ := root
  rw [collect, collectIn_eq]
  by_cases htype : type ∈ types
  · simp [htype, Node.type, Node.children]
  · simp [htype, Node.type, Node.children]

/-! ## Places of a tree -/

/-- The place is one of the tree: the nodes above it are those on the way
from the top. -/
inductive Place.In (root : Node) : Place → Prop
  /-- The top has nothing above it. -/
  | top : Place.In root ⟨root, []⟩
  /-- A child has its parent above it. -/
  | child {p : Place} {c : Node} : Place.In root p → c ∈ p.node.children →
      Place.In root ⟨c, p.chain⟩

/-- A place below a place is one of the whole tree. -/
theorem Place.In.within (hp : p.In root) (hq : q.In p.node) :
    Place.In root ⟨q.node, q.above ++ p.above⟩ := by
  induction hq with
  | top => exact hp
  | child _ hc ih => exact ih.child hc

/-- The nodes above a place are at places of their own. -/
theorem Place.In.exists_of_mem_chain (hp : p.In root) (hn : n ∈ p.chain) :
    ∃ q : Place, q.In root ∧ q.node = n := by
  induction hp with
  | top =>
    obtain rfl := List.mem_singleton.1 hn
    exact ⟨_, .top, rfl⟩
  | child hparent hc ih =>
    rcases List.mem_cons.1 hn with rfl | habove
    · exact ⟨_, hparent.child hc, rfl⟩
    · exact ih habove

/-- A place that is not the top is below one of the children of the top. -/
theorem Place.In.eq_top_or_below (hp : p.In root) :
    p.node = root ∨ ∃ c ∈ root.children, ∃ q : Place, q.In c ∧ q.node = p.node := by
  induction hp with
  | top => exact Or.inl rfl
  | @child p c _ hc ih =>
    right
    rcases ih with htop | ⟨d, hd, q, hq, hnode⟩
    · exact ⟨c, htop ▸ hc, ⟨c, []⟩, .top, rfl⟩
    · exact ⟨d, hd, ⟨c, q.chain⟩, hq.child (hnode ▸ hc), rfl⟩

/-- What holds at every place of a tree that is written out holds at its top
and everywhere below the children. -/
theorem forall_place_mk_iff {P : Node → Prop} {type text : String}
    {startRow stopRow startByte stopByte : Int} {children : List Node} :
    (∀ p : Place, p.In (.mk type startRow stopRow startByte stopByte text children) → P p.node) ↔
      P (.mk type startRow stopRow startByte stopByte text children) ∧
      ∀ c ∈ children, ∀ p : Place, p.In c → P p.node := by
  generalize hroot : Node.mk type startRow stopRow startByte stopByte text children = root
  obtain rfl : root.children = children := hroot ▸ rfl
  constructor
  · intro h
    refine ⟨h ⟨root, []⟩ .top, fun c hc p hp => ?_⟩
    have hplace : Place.In root ⟨p.node, p.above ++ [root]⟩ := (Place.In.top.child hc).within hp
    exact h ⟨p.node, p.above ++ [root]⟩ hplace
  · rintro ⟨htop, hbelow⟩ p hp
    rcases hp.eq_top_or_below with hnode | ⟨c, hc, q, hq, hnode⟩
    · exact hnode ▸ htop
    · exact hnode ▸ hbelow c hc q hq

/-- **The nodes that are collected** are those of the tree that are of the
given sorts. -/
theorem mem_collect_iff :
    n ∈ collect types root ↔ n.type ∈ types ∧ ∃ p : Place, p.In root ∧ p.node = n := by
  induction root using Node.induct with
  | step root ih =>
    rw [mem_collect_iff_children]
    constructor
    · rintro (⟨rfl, htype⟩ | ⟨c, hc, hmem⟩)
      · exact ⟨htype, ⟨n, []⟩, .top, rfl⟩
      · obtain ⟨htype, q, hq, rfl⟩ := (ih c hc).1 hmem
        exact ⟨htype, _, (Place.In.top.child hc).within hq, rfl⟩
    · rintro ⟨htype, p, hp, rfl⟩
      rcases hp.eq_top_or_below with htop | ⟨c, hc, q, hq, hnode⟩
      · exact Or.inl ⟨htop, htop ▸ htype⟩
      · exact Or.inr ⟨c, hc, (ih c hc).2 ⟨htype, q, hq, hnode⟩⟩

/-! ## The place of a row -/

/-- The place is the innermost one at a row, on the way from the top. -/
structure Found (row : Num) (root : Node) (p : Place) : Prop where
  place : p.In root
  includes : ∀ n ∈ p.chain, covers row n.startRow n.stopRow = true
  innermost : ∀ c ∈ p.node.children, covers row c.startRow c.stopRow = false

theorem findRow_eq_none_iff :
    findRow row above n = none ↔ covers row n.startRow n.stopRow = false := by
  rw [findRow_eq]
  split <;> simp_all

/-- One step of the search: what is found from a place on is found from the
top, if all above the place includes the row. -/
theorem found_of_findRow_below (hplace : Place.In root ⟨n, above⟩)
    (habove : ∀ m ∈ above, covers row m.startRow m.stopRow = true)
    (hfind : findRow row above n = some p) : Found row root p := by
  induction n using Node.induct generalizing above with
  | step n ih =>
    have hcovers : covers row n.startRow n.stopRow = true := by
      cases hcovers : covers row n.startRow n.stopRow with
      | true => rfl
      | false =>
        rw [findRow_eq_none_iff.2 hcovers] at hfind
        cases hfind
    rw [findRow_eq, if_pos hcovers] at hfind
    have hchain : ∀ m ∈ n :: above, covers row m.startRow m.stopRow = true :=
      List.forall_mem_cons.2 ⟨hcovers, habove⟩
    cases hchildren : n.children.findSome? (findRow row (n :: above)) with
    | some q =>
      -- the first child that includes the row decides
      obtain ⟨c, hc, hq⟩ := List.exists_of_findSome?_eq_some hchildren
      rw [hchildren] at hfind
      obtain rfl : q = p := Option.some.inj hfind
      exact ih c hc (hplace.child hc) hchain hq
    | none =>
      rw [hchildren] at hfind
      obtain rfl : (⟨n, above⟩ : Place) = p := Option.some.inj hfind
      refine ⟨hplace, hchain, fun c hc => ?_⟩
      exact findRow_eq_none_iff.1 (List.findSome?_eq_none_iff.1 hchildren c hc)

/-- **The search finds the innermost place at a row.** -/
theorem found_of_findRow (hfind : findRow row [] root = some p) : Found row root p :=
  found_of_findRow_below .top (List.forall_mem_nil _) hfind

/-! ## What is shown of a place -/

/-- The node is the nearest of one of the given sorts, along a way outwards. -/
def Nearest (types : List String) (chain : List Node) (n : Node) : Prop :=
  ∃ inner outer, chain = inner ++ n :: outer ∧ n.type ∈ types ∧ ∀ m ∈ inner, m.type ∉ types

/-- There is no node of the given sorts along the way. -/
def Absent (types : List String) (chain : List Node) : Prop :=
  ∀ m ∈ chain, m.type ∉ types

theorem enclosing?_eq_some_iff : p.enclosing? types = some n ↔ Nearest types p.chain n := by
  rw [Place.enclosing?, List.find?_eq_some_iff_append]
  simp only [List.contains_eq_mem, decide_eq_true_eq, Bool.not_eq_true', decide_eq_false_iff_not,
    Nearest]
  constructor
  · rintro ⟨htype, inner, outer, hchain, hinner⟩
    exact ⟨inner, outer, hchain, htype, hinner⟩
  · rintro ⟨inner, outer, hchain, htype, hinner⟩
    exact ⟨htype, inner, outer, hchain, hinner⟩

theorem enclosing?_eq_none_iff : p.enclosing? types = none ↔ Absent types p.chain := by
  simp [Place.enclosing?, Absent]

/-- The node is shown for a place: it is the nearest function, or the
nearest class if there is no function, or the node of the place. -/
inductive Shows (g : Grammar) (p : Place) (n : Node) : Prop
  | inFunction (hnearest : Nearest g.functions p.chain n)
  | inClass (hfunctions : Absent g.functions p.chain) (hnearest : Nearest g.classes p.chain n)
  | alone (hfunctions : Absent g.functions p.chain) (hclasses : Absent g.classes p.chain)
      (hself : n = p.node)

/-- **One node is shown for a place.** -/
theorem shows_iff : Shows g p n ↔ p.shown g = n := by
  have hshows : Shows g p (p.shown g) := by
    unfold Place.shown
    cases hfunction : p.enclosing? g.functions with
    | some f => exact .inFunction (enclosing?_eq_some_iff.1 hfunction)
    | none =>
      have hfunctions := enclosing?_eq_none_iff.1 hfunction
      cases hclass : p.enclosing? g.classes with
      | some c => exact .inClass hfunctions (enclosing?_eq_some_iff.1 hclass)
      | none => exact .alone hfunctions (enclosing?_eq_none_iff.1 hclass) rfl
  constructor
  · intro h
    cases h with
    | inFunction hnearest =>
      rw [Place.shown, enclosing?_eq_some_iff.2 hnearest]
      rfl
    | inClass hfunctions hnearest =>
      rw [Place.shown, enclosing?_eq_none_iff.2 hfunctions, enclosing?_eq_some_iff.2 hnearest]
      rfl
    | alone hfunctions hclasses hself =>
      rw [Place.shown, enclosing?_eq_none_iff.2 hfunctions, enclosing?_eq_none_iff.2 hclasses, hself]
      rfl
  · rintro rfl
    exact hshows

theorem Nearest.mem {chain : List Node} (h : Nearest types chain n) : n ∈ chain := by
  obtain ⟨inner, outer, rfl, -, -⟩ := h
  simp

/-- What is shown is the node of the place or one above it. -/
theorem Shows.mem_chain (h : Shows g p n) : n ∈ p.chain := by
  cases h with
  | inFunction hnearest => exact hnearest.mem
  | inClass hfunctions hnearest => exact hnearest.mem
  | alone hfunctions hclasses hself => exact hself ▸ List.mem_cons_self

end Context

end SecureReview
