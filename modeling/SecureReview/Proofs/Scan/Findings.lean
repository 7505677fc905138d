import SecureReview.Proofs.Json.Fields
import SecureReview.Proofs.Scan.Tools
/-!
# The form of findings

Whatever a tool prints, each finding that is read from it is a record of
the same eight fields in the same order (`isFinding_of_mem_foundBy`). So it
names a file and a line (`IsFinding.exists_field`), and has room for a
context (`IsFinding.withContext_eq`).
-/

namespace SecureReview.Scan

/-- The names of the fields of a finding, in order. -/
def findingFields : List String :=
  ["tool", "severity", "confidence", "description", "file", "line", "code", "rule_id"]

/-- A record of the fields of a finding. -/
def IsFinding (f : Json) : Prop :=
  ∃ fields : Fields, f = .obj fields ∧ fields.map Prod.fst = findingFields

variable {f : Json}

/-- **A finding has each of its fields.** -/
theorem IsFinding.exists_field (h : IsFinding f) {k : String} (hk : k ∈ findingFields) :
    ∃ v, f.get? k = some v := by
  obtain ⟨fields, rfl, hfields⟩ := h
  rw [Json.get?_obj, ← Option.isSome_iff_exists, Fields.isSome_get?_iff, hfields]
  exact hk

/-- A context comes after the fields of a finding, in place of none of them. -/
theorem IsFinding.withContext_eq (h : IsFinding f) (context : Json) :
    ∃ fields, f = .obj fields ∧ "context" ∉ fields.map Prod.fst ∧
      withContext f context = .obj (fields ++ [("context", context)]) := by
  obtain ⟨fields, rfl, hfields⟩ := h
  have hroom : "context" ∉ fields.map Prod.fst := by
    rw [hfields]
    decide
  exact ⟨fields, rfl, hroom, congrArg Json.obj (Fields.put_of_not_mem hroom)⟩

/-! ## One finding of each tool -/

/-- A finding, where there is one. -/
def IsFinding? (o : Option Json) : Prop :=
  ∀ f, o = some f → IsFinding f

theorem isFinding?_none : IsFinding? none := by
  intro f hf
  cases hf

theorem isFinding?_some {f : Json} (h : IsFinding f) : IsFinding? (some f) := by
  intro f' hf
  rwa [← Option.some.inj hf]

theorem Bandit.gives_finding (r : Json) : Run.Gives IsFinding (finding r) := by
  unfold finding
  refine .bind fun severity => .bind fun confidence => .bind fun description => ?_
  exact .bind fun file => .bind fun line => .bind fun code => .bind fun rule => .ok ⟨_, rfl, rfl⟩

theorem Eslint.gives_finding? (d : Dialect) (file msg : Json) :
    Run.Gives IsFinding? (finding? d file msg) := by
  unfold finding?
  refine .bind fun rule => .ite (.ok isFinding?_none) ?_
  refine .bind fun counts => .ite (.ok isFinding?_none) ?_
  refine .bind fun severity => .bind fun description => .bind fun line => .bind fun code => ?_
  exact .ok (isFinding?_some ⟨_, rfl, rfl⟩)

theorem Gosec.gives_finding (r : Json) : Run.Gives IsFinding (finding r) := by
  unfold finding
  refine .bind fun level => .bind fun severity => ?_
  split
  -- with a line or without one
  all_goals
    refine .bind fun line => .bind fun trust => .bind fun confidence => .bind fun description => ?_
    exact .bind fun file => .bind fun code => .bind fun rule => .ok ⟨_, rfl, rfl⟩

theorem Cargo.gives_advisoryFinding (r : Json) : Run.Gives IsFinding (advisoryFinding r) := by
  unfold advisoryFinding
  refine .bind fun advisory => .bind fun package => .bind fun title => .bind fun name => ?_
  exact .bind fun version => .bind fun code => .bind fun rule => .ok ⟨_, rfl, rfl⟩

theorem Cargo.gives_lintFinding? (r : Json) : Run.Gives IsFinding? (lintFinding? r) := by
  unfold lintFinding?
  refine .bind fun spans => .ite (.ok isFinding?_none) ?_
  refine .bind fun span => .bind fun lint => .bind fun level => .bind fun text => ?_
  refine .ite (.bind fun first => .bind fun code => ?_) (.bind fun code => ?_)
  -- with a code or without one
  all_goals
    refine .bind fun description => .bind fun file => .bind fun line => ?_
    exact .ok (isFinding?_some ⟨_, rfl, rfl⟩)

/-! ## All that is read -/

theorem isFinding_of_mem_filterMap {os : List (Option Json)} (h : ∀ o ∈ os, IsFinding? o) :
    ∀ f ∈ os.filterMap id, IsFinding f := by
  intro f hf
  obtain ⟨o, ho, hsome⟩ := List.mem_filterMap.1 hf
  exact h o ho f hsome

theorem isFinding_of_mem_flatten {found : List (List Json)} (h : ∀ fs ∈ found, ∀ f ∈ fs, IsFinding f) :
    ∀ f ∈ found.flatten, IsFinding f := by
  intro f hf
  obtain ⟨fs, hfs, hf⟩ := List.mem_flatten.1 hf
  exact h fs hfs f hf

theorem Eslint.gives_fileFindings (d : Dialect) (result : Json) :
    Run.Gives (fun fs => ∀ f ∈ fs, IsFinding f) (fileFindings d result) := by
  unfold fileFindings
  refine .bind fun file => .bind fun listed => .bind fun messages => ?_
  exact .bind_of (.mapM (gives_finding? d file) messages) fun os hos =>
    .ok (isFinding_of_mem_filterMap hos)

/-- **What a tool prints is read as findings**, or not at all. -/
theorem Tool.gives_read (t : Tool) (output : String) :
    Run.Gives (fun fs => ∀ f ∈ fs, IsFinding f) (t.read output) := by
  cases t with
  | bandit =>
    refine .bind fun report => .bind fun results => .bind fun items => ?_
    exact .mapM Bandit.gives_finding items
  | eslint d =>
    refine .bind fun report => .bind fun items => ?_
    exact .bind_of (.mapM (Eslint.gives_fileFindings d) items) fun found hfound =>
      .ok (isFinding_of_mem_flatten hfound)
  | gosec =>
    refine .ite (.ok (List.forall_mem_nil _)) ?_
    refine .bind fun report => .bind fun results => .bind fun items => ?_
    exact .mapM Gosec.gives_finding items
  | audit =>
    refine .ite (.ok (List.forall_mem_nil _)) ?_
    refine .bind fun report => .bind fun vulnerabilities => .bind fun results => .bind fun items => ?_
    exact .mapM Cargo.gives_advisoryFinding items
  | lint =>
    refine .bind fun messages => .bind fun items => ?_
    exact .bind_of (.mapM Cargo.gives_lintFinding? items) fun os hos =>
      .ok (isFinding_of_mem_filterMap hos)

theorem Tool.isFinding_of_mem_found (t : Tool) (p : ProcessScript) : ∀ f ∈ t.found p, IsFinding f := by
  intro f hf
  rw [Tool.found] at hf
  split at hf
  · cases hf
  · cases hout : t.read p.stdout with
    | error e =>
      rw [hout] at hf
      cases hf
    | ok fs =>
      rw [hout] at hf
      exact t.gives_read p.stdout fs hout f hf

/-- **Tools find findings**, whatever happens when they are run. -/
theorem isFinding_of_mem_foundBy (ts : List Tool) (ps : List ProcessScript) :
    ∀ f ∈ foundBy ts ps, IsFinding f := by
  induction ts generalizing ps with
  | nil =>
    intro f hf
    cases hf
  | cons t ts ih => exact List.forall_mem_append.2 ⟨t.isFinding_of_mem_found _, ih _⟩

end SecureReview.Scan
