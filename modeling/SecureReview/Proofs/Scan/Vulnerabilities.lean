import Mathlib.Data.List.Forall2
import Mathlib.Data.List.TakeWhile
import SecureReview.Json.Access
import SecureReview.Proofs.Json.Reading
import SecureReview.Proofs.World.Frame
import SecureReview.Scan.Dependencies
/-!
# Vulnerabilities that audits report

Three audits print a list of vulnerabilities, and a scan makes one finding
of each, in order. But a vulnerability that cannot be read ends the scan,
and **all that come after it are lost** with it (`scan_findings_iff`). In
the shape in which the audits print them, these are the vulnerabilities
that no version fixes, and for packages also those with a cause that is
only named or a fix that is only said to exist (`reads_of_shaped`).
-/

namespace SecureReview.Scan.Dependencies

/-! ## Up to the first failure -/

section UntilFailure

variable {α β γ : Type} {f : α → Except Failure β}

/-- The results are those of the items before the first that fails. -/
theorem untilFailure_spec (f : α → Except Failure β) (xs : List α) :
    List.Forall₂ (fun x y => f x = .ok y) (xs.takeWhile fun x => (f x).isOk) (untilFailure f xs) := by
  induction xs with
  | nil => exact .nil
  | cons x xs ih =>
    rw [untilFailure, List.takeWhile_cons]
    cases hx : f x with
    | error e => exact .nil
    | ok y => exact .cons hx ih

/-- What is told of each result by its item is told of all of them. -/
theorem map_untilFailure {g : β → γ} {h : α → γ} (hg : ∀ x y, f x = .ok y → g y = h x)
    (xs : List α) :
    (untilFailure f xs).map g = (xs.takeWhile fun x => (f x).isOk).map h := by
  induction xs with
  | nil => rfl
  | cons x xs ih =>
    rw [untilFailure, List.takeWhile_cons]
    cases hx : f x with
    | error e => rfl
    | ok y => exact congrArg₂ List.cons (hg x y hx) ih

/-- Nothing is lost if nothing fails. -/
theorem length_untilFailure_eq_iff (f : α → Except Failure β) (xs : List α) :
    (untilFailure f xs).length = xs.length ↔ ∀ x ∈ xs, (f x).isOk = true := by
  rw [← (untilFailure_spec f xs).length_eq, ← List.takeWhile_eq_self_iff]
  constructor
  · intro hlength
    exact (List.takeWhile_prefix _).eq_of_length hlength
  · intro hself
    rw [hself]

end UntilFailure

/-! ## Audits -/

/-- The audits whose reports list vulnerabilities. -/
inductive Audit where
  | python
  | javascript
  | rust

/-- What identifies a vulnerability: its number, and the package and the version that have it. -/
structure Identity where
  cve : Json
  package : Json
  version : Json

/-- What a finding says of the vulnerability. -/
def Identity.ofFinding (f : Json) : Identity :=
  ⟨f.part "cve", f.part "package", f.part "version"⟩

namespace Audit

/-- One vulnerability in a report. One audit lists them under the names of packages. -/
abbrev Entry : Audit → Type
  | .python => Json
  | .javascript => String × Json
  | .rust => Json

/-- The scan that runs the audit. -/
def scan : Audit → String → Run (List Json)
  | .python => Dependencies.python
  | .javascript => Dependencies.javascript
  | .rust => Dependencies.rust

/-- The command of the audit. -/
def command (path : String) : Audit → Command
  | .python => {
      words := ["pip-audit", "--format", "json", "--requirement", "requirements.txt"],
      cwd := some path, timeout := some 60 }
  | .javascript => { words := ["npm", "audit", "--json"], cwd := some path, timeout := some 60 }
  | .rust => { words := ["cargo", "audit", "--json"], cwd := some path, timeout := some 60 }

/-- The vulnerabilities in what the audit printed. -/
def printed : (a : Audit) → Finished → Except Failure (List a.Entry)
  | .python, out => pythonEntries out.code out.stdout
  | .javascript, out => javascriptEntries out.stdout
  | .rust, out => rustEntries out.stdout

/-- The finding on a vulnerability. -/
def read : (a : Audit) → a.Entry → Except Failure Json
  | .python => pythonFinding
  | .javascript => javascriptFinding
  | .rust => rustFinding

/-- Run an audit and read its list. -/
def run (path : String) (a : Audit) : Run (List Json) :=
  try
    let out ← Run.process (a.command path)
    return untilFailure a.read (entries (a.printed out))
  catch _ => return []

theorem scan_eq_run (a : Audit) (path : String) : a.scan path = a.run path := by
  cases a <;> rfl

/-- **A scan reads the list up to the first vulnerability that cannot be read.** -/
theorem run_scan (a : Audit) (path : String) {w : World} (hfault : w.nextScript.fault = none) :
    (a.scan path).run.run w =
      (.ok (untilFailure a.read (entries (a.printed
        ⟨w.nextScript.stdout, w.nextScript.stderr, w.nextScript.code⟩))),
        w.afterCommand (a.command path)) := by
  have hcheck : (a.command path).check = false := by cases a <;> rfl
  rw [scan_eq_run, run, Run.run_bind, Run.run_tryCatch,
    Run.run_bind_ok (Run.run_process hcheck hfault)]
  rfl

/-! ## Reports -/

/-- The items of a list. -/
def items? : Json → Option (List Json)
  | .arr vs => some vs
  | _ => none

/-- The fields of an object. -/
def fields? : Json → Option Fields
  | .obj fs => some fs
  | _ => none

/-- The vulnerabilities in a report, if it has the form of the audit. -/
def listed : (a : Audit) → Json → Option (List a.Entry)
  | .python, report => do
    items? ((Fields.get? (← fields? report) "vulnerabilities").getD (.arr []))
  | .javascript, report => do
    fields? ((Fields.get? (← fields? report) "vulnerabilities").getD (.obj []))
  | .rust, report => do
    let part ← fields? ((Fields.get? (← fields? report) "vulnerabilities").getD (.obj []))
    items? ((Fields.get? part "list").getD (.arr []))

theorem eq_arr_of_items? {v : Json} {vs : List Json} (h : items? v = some vs) : v = .arr vs := by
  cases v with
  | arr us =>
    cases h
    rfl
  | _ => cases h

theorem eq_obj_of_fields? {v : Json} {fs : Fields} (h : fields? v = some fs) : v = .obj fs := by
  cases v with
  | obj us =>
    cases h
    rfl
  | _ => cases h

/-- **What is listed in a report is read from it.** -/
theorem printed_of_listed {a : Audit} {report : Json} {vs : List a.Entry} {out : Finished}
    (hreport : Json.parseString out.stdout = .ok report) (hlisted : a.listed report = some vs) :
    a.printed out = .ok vs := by
  -- there is no report in an empty output
  have hne : (out.stdout == "") = false := by
    refine beq_false_of_ne fun hempty => ?_
    rw [hempty] at hreport
    cases hreport
  have hread : Json.read out.stdout = .ok report := by rw [Json.read, hreport]
  cases a with
  | python =>
    obtain ⟨fields, hfields, hitems⟩ := Option.bind_eq_some_iff.1 hlisted
    rw [printed, pythonEntries, hne, Bool.and_false, hread, eq_obj_of_fields? hfields]
    simp only [bind, Except.bind, Json.getD_obj, eq_arr_of_items? hitems]
    rfl
  | javascript =>
    obtain ⟨fields, hfields, hpart⟩ := Option.bind_eq_some_iff.1 hlisted
    rw [printed, javascriptEntries, hne, hread, eq_obj_of_fields? hfields]
    simp only [bind, Except.bind, Json.getD_obj, eq_obj_of_fields? hpart]
    rfl
  | rust =>
    obtain ⟨fields, hfields, hlisted⟩ := Option.bind_eq_some_iff.1 hlisted
    obtain ⟨part, hpart, hitems⟩ := Option.bind_eq_some_iff.1 hlisted
    rw [printed, rustEntries, hne, hread, eq_obj_of_fields? hfields]
    simp only [bind, Except.bind, Json.getD_obj, eq_obj_of_fields? hpart, eq_arr_of_items? hitems]
    rfl

/-! ## Vulnerabilities that can be read -/

/-- A part is absent or a text. -/
def textOrAbsent : Option Json → Bool
  | none => true
  | some (.str _) => true
  | some _ => false

/-- A part is absent or an object. -/
def objectOrAbsent : Option Json → Bool
  | none => true
  | some (.obj _) => true
  | some _ => false

/-- A part is absent or begins with something. -/
def beginsOrAbsent : Option Json → Bool
  | none => true
  | some (.arr (_ :: _)) => true
  | some (.str s) => s != ""
  | some _ => false

/-- A part is absent or begins with an object. -/
def objectFirstOrAbsent : Option Json → Bool
  | none => true
  | some (.arr (.obj _ :: _)) => true
  | some _ => false

/-- The vulnerability can be read. -/
def reads : (a : Audit) → a.Entry → Bool
  | .python, .obj v =>
    textOrAbsent (Fields.get? v "severity") && beginsOrAbsent (Fields.get? v "fix_versions")
  | .javascript, (_, .obj v) =>
    textOrAbsent (Fields.get? v "severity") && objectFirstOrAbsent (Fields.get? v "via") &&
      objectOrAbsent (Fields.get? v "fixAvailable")
  | .rust, .obj v =>
    objectOrAbsent (Fields.get? v "advisory") && objectOrAbsent (Fields.get? v "package") &&
      beginsOrAbsent (((Json.obj v).part "advisory").get? "patched_versions")
  | _, _ => false

section Parts

variable {part : Option Json}

theorem asString_isOk (s name : String) :
    ((part.getD (.str s)).asString name).isOk = textOrAbsent part := by
  cases part with
  | none => rfl
  | some v => cases v <;> rfl

theorem first_isOk : ((part.getD (.arr [.null])).first).isOk = beginsOrAbsent part := by
  cases part with
  | none => rfl
  | some v =>
    cases v with
    | arr vs => cases vs <;> rfl
    | str s =>
      rw [beginsOrAbsent, Option.getD_some, Json.first]
      by_cases hs : s = ""
      · subst hs
        rfl
      · obtain ⟨c, cs, hcs⟩ := List.exists_cons_of_ne_nil (mt String.toList_eq_nil_iff.1 hs)
        rw [hcs, bne, beq_false_of_ne hs]
        rfl
    | _ => rfl

/-- A first cause is an object if it can be asked for its number. -/
theorem first_getD_isOk (k : String) (d : Json) :
    ((part.getD (.arr [.obj []])).first >>= fun v => v.getD k d).isOk =
      objectFirstOrAbsent part := by
  cases part with
  | none => rfl
  | some v =>
    cases v with
    | arr vs =>
      cases vs with
      | nil => rfl
      | cons v vs => cases v <;> rfl
    | str s =>
      rw [Option.getD_some, Json.first]
      cases s.toList <;> rfl
    | _ => rfl

theorem getD_isOk (k : String) (d : Json) :
    ((part.getD (.obj [])).getD k d).isOk = objectOrAbsent part := by
  cases part with
  | none => rfl
  | some v => cases v <;> rfl

end Parts

theorem pythonFinding_isOk (v : Json) : (pythonFinding v).isOk = reads .python v := by
  cases v with
  | obj fields =>
    rw [reads, ← asString_isOk "MEDIUM" "upper", ← first_isOk]
    simp only [pythonFinding, Json.get, Json.getD_obj, bind, Except.bind]
    cases ((Fields.get? fields "severity").getD (.str "MEDIUM")).asString "upper" with
    | error e => rfl
    | ok level => cases ((Fields.get? fields "fix_versions").getD (.arr [.null])).first <;> rfl
  | _ => rfl

theorem javascriptFinding_isOk (e : String × Json) :
    (javascriptFinding e).isOk = reads .javascript e := by
  obtain ⟨package, v⟩ := e
  cases v with
  | obj fields =>
    rw [reads, ← asString_isOk "medium" "upper", ← first_getD_isOk "cve" (.str "UNKNOWN"),
      ← getD_isOk "version" .null]
    simp only [javascriptFinding, Json.get, Json.uppered, Json.getD_obj, bind, Except.bind]
    cases ((Fields.get? fields "severity").getD (.str "medium")).asString "upper" with
    | error e => rfl
    | ok level =>
      cases ((Fields.get? fields "via").getD (.arr [.obj []])).first with
      | error e => rfl
      | ok via =>
        cases via with
        | obj cause =>
          cases ((Fields.get? fields "fixAvailable").getD (.obj [])).getD "version" .null <;> rfl
        | _ => rfl
  | _ => rfl

theorem rustFinding_isOk (v : Json) : (rustFinding v).isOk = reads .rust v := by
  cases v with
  | obj fields =>
    have hpart : ((Json.obj fields).part "advisory").get? "patched_versions" =
        ((Fields.get? fields "advisory").getD (.obj [])).get? "patched_versions" := by
      rw [Json.part, Json.get?_obj]
      cases Fields.get? fields "advisory" <;> rfl
    rw [reads, hpart, ← getD_isOk "name" .null, ← getD_isOk "id" .null]
    simp only [rustFinding, Json.get, Json.getD_obj, bind, Except.bind]
    cases (Fields.get? fields "advisory").getD (.obj []) with
    | obj advisory =>
      rw [Json.get?_obj, ← first_isOk]
      simp only [Json.getD_obj]
      cases ((Fields.get? advisory "patched_versions").getD (.arr [.null])).first with
      | error e => cases (Fields.get? fields "package").getD (.obj []) <;> rfl
      | ok fixed => cases (Fields.get? fields "package").getD (.obj []) <;> rfl
    | _ => rfl
  | _ => rfl

/-- **When a vulnerability can be read.** -/
theorem read_isOk (a : Audit) (v : a.Entry) : (a.read v).isOk = a.reads v := by
  cases a with
  | python => exact pythonFinding_isOk v
  | javascript => exact javascriptFinding_isOk v
  | rust => exact rustFinding_isOk v

/-! ## What findings say -/

/-- What a report says of a vulnerability. Of several causes the first counts. -/
def identity : (a : Audit) → a.Entry → Identity
  | .python, v => ⟨v.part "id", v.part "name", v.part "version"⟩
  | .javascript, (package, v) =>
    ⟨((v.part "via").list.headD .null).part "cve", .str package, v.partOr "range" (.str "unknown")⟩
  | .rust, v =>
    ⟨(v.part "advisory").part "id", (v.part "package").part "name", (v.part "package").part "version"⟩

theorem identity_pythonFinding {v f : Json} (h : pythonFinding v = .ok f) :
    Identity.ofFinding f = identity .python v := by
  cases v with
  | obj fields =>
    simp only [pythonFinding, Json.get, Json.getD_obj, bind, Except.bind] at h
    split at h
    · cases h
    · split at h
      · cases h
      · cases h
        rfl
  | _ => cases h

/-- The first cause, where it is an object. -/
theorem part_of_first {part : Option Json} {cause : Fields} (k : String)
    (h : (part.getD (.arr [.obj []])).first = .ok (.obj cause)) :
    ((part.getD .null).list.headD .null).part k = (Fields.get? cause k).getD .null := by
  cases part with
  | none =>
    cases h
    rfl
  | some v =>
    cases v with
    | arr vs =>
      cases vs with
      | nil => cases h
      | cons v vs =>
        cases h
        rfl
    | str s =>
      rw [Option.getD_some, Json.first] at h
      split at h <;> cases h
    | _ => cases h

theorem identity_javascriptFinding {e : String × Json} {f : Json}
    (h : javascriptFinding e = .ok f) : Identity.ofFinding f = identity .javascript e := by
  obtain ⟨package, v⟩ := e
  cases v with
  | obj fields =>
    simp only [javascriptFinding, Json.get, Json.getD_obj, bind, Except.bind] at h
    split at h
    · cases h
    · split at h
      · cases h
      · next via hvia =>
        cases via with
        | obj cause =>
          have hcve := part_of_first "cve" hvia
          simp only [Json.getD_obj] at h
          split at h
          · cases h
          · cases h
            exact congrArg (Identity.mk · _ _) hcve.symm
        | _ => cases h
  | _ => cases h

/-- A part that defaults to an empty object has no other fields than one that is missing. -/
theorem part_of_getD {part : Option Json} {k : String} {x : Json}
    (h : (part.getD (.obj [])).getD k .null = .ok x) : (part.getD .null).part k = x := by
  cases part with
  | none =>
    cases h
    rfl
  | some v =>
    cases v with
    | obj fields =>
      cases h
      rfl
    | _ => cases h

theorem identity_rustFinding {v f : Json} (h : rustFinding v = .ok f) :
    Identity.ofFinding f = identity .rust v := by
  cases v with
  | obj fields =>
    obtain ⟨advisory, hadvisory, h⟩ := Run.except_bind_eq_ok.1 h
    obtain ⟨package, hpackage, h⟩ := Run.except_bind_eq_ok.1 h
    obtain ⟨versions, -, h⟩ := Run.except_bind_eq_ok.1 h
    obtain ⟨fixed, -, h⟩ := Run.except_bind_eq_ok.1 h
    obtain ⟨rule, -, h⟩ := Run.except_bind_eq_ok.1 h
    obtain ⟨title, -, h⟩ := Run.except_bind_eq_ok.1 h
    obtain ⟨id, hid, h⟩ := Run.except_bind_eq_ok.1 h
    obtain ⟨name, hname, h⟩ := Run.except_bind_eq_ok.1 h
    obtain ⟨version, hversion, h⟩ := Run.except_bind_eq_ok.1 h
    cases h
    obtain rfl := Except.ok.inj hadvisory
    obtain rfl := Except.ok.inj hpackage
    have hid' : ((Json.obj fields).part "advisory").part "id" = id := part_of_getD hid
    have hname' : ((Json.obj fields).part "package").part "name" = name := part_of_getD hname
    have hversion' : ((Json.obj fields).part "package").part "version" = version :=
      part_of_getD hversion
    rw [identity, hid', hname', hversion']
    rfl
  | _ => cases h

/-- **A finding is about its vulnerability.** -/
theorem identity_read {a : Audit} {v : a.Entry} {f : Json} (h : a.read v = .ok f) :
    Identity.ofFinding f = a.identity v := by
  cases a with
  | python => exact identity_pythonFinding h
  | javascript => exact identity_javascriptFinding h
  | rust => exact identity_rustFinding h

/-! ## The shape in which audits report -/

/-- A part is absent or a list. -/
def listOrAbsent : Option Json → Bool
  | none => true
  | some (.arr _) => true
  | some _ => false

/-- A cause is a vulnerability of its own, or the name of another package. -/
def isCause : Json → Bool
  | .str _ => true
  | .obj _ => true
  | _ => false

/-- Causes are absent or a list of causes. -/
def causesOrAbsent : Option Json → Bool
  | none => true
  | some (.arr vs) => vs.all isCause
  | some _ => false

/-- A fix is absent, or said to exist or not, or told. -/
def fixOrAbsent : Option Json → Bool
  | none => true
  | some (.bool _) => true
  | some (.obj _) => true
  | some _ => false

/-- The vulnerability has the shape in which the audit reports it. -/
def shaped : (a : Audit) → a.Entry → Bool
  | .python, .obj v =>
    textOrAbsent (Fields.get? v "severity") && listOrAbsent (Fields.get? v "fix_versions")
  | .javascript, (_, .obj v) =>
    textOrAbsent (Fields.get? v "severity") && causesOrAbsent (Fields.get? v "via") &&
      fixOrAbsent (Fields.get? v "fixAvailable")
  | .rust, .obj v =>
    objectOrAbsent (Fields.get? v "advisory") && objectOrAbsent (Fields.get? v "package") &&
      listOrAbsent (((Json.obj v).part "advisory").get? "patched_versions")
  | _, _ => false

/-- What ends a scan: no version fixes the vulnerability, or of a package no cause is told, the first
is only named, or a fix is only said to exist or not. -/
def Stops : (a : Audit) → a.Entry → Prop
  | .python, v => v.get? "fix_versions" = some (.arr [])
  | .javascript, (_, v) =>
    v.get? "via" = some (.arr []) ∨ (∃ name more, v.get? "via" = some (.arr (.str name :: more))) ∨
      ∃ known, v.get? "fixAvailable" = some (.bool known)
  | .rust, v => (v.part "advisory").get? "patched_versions" = some (.arr [])

/-- A list that does not begin with anything is empty. -/
theorem beginsOrAbsent_of_list {part : Option Json} (h : listOrAbsent part = true) :
    beginsOrAbsent part = false ↔ part = some (.arr []) := by
  cases part with
  | none => simp [beginsOrAbsent]
  | some v =>
    cases v with
    | arr vs => cases vs <;> simp [beginsOrAbsent]
    | _ => cases h

theorem reads_python_of_shaped {v : Json} (h : shaped .python v = true) :
    reads .python v = false ↔ Stops .python v := by
  cases v with
  | obj fields =>
    obtain ⟨hseverity, hlist⟩ := Bool.and_eq_true_iff.1 h
    rw [reads, hseverity, Bool.true_and]
    exact beginsOrAbsent_of_list hlist
  | _ => cases h

theorem reads_javascript_of_shaped {e : String × Json} (h : shaped .javascript e = true) :
    reads .javascript e = false ↔ Stops .javascript e := by
  obtain ⟨package, v⟩ := e
  cases v with
  | obj fields =>
    obtain ⟨h, hfix⟩ := Bool.and_eq_true_iff.1 h
    obtain ⟨hseverity, hcauses⟩ := Bool.and_eq_true_iff.1 h
    have hvia : objectFirstOrAbsent (Fields.get? fields "via") = false ↔
        Fields.get? fields "via" = some (.arr []) ∨
          ∃ name more, Fields.get? fields "via" = some (.arr (.str name :: more)) := by
      cases hpart : Fields.get? fields "via" with
      | none => simp [objectFirstOrAbsent]
      | some v =>
        rw [hpart] at hcauses
        cases v with
        | arr vs =>
          cases vs with
          | nil => simp [objectFirstOrAbsent]
          | cons v vs =>
            obtain ⟨hcause, -⟩ := Bool.and_eq_true_iff.1 hcauses
            cases v with
            | str s => simp [objectFirstOrAbsent]
            | obj fs => simp [objectFirstOrAbsent]
            | _ => cases hcause
        | _ => cases hcauses
    have hfixed : objectOrAbsent (Fields.get? fields "fixAvailable") = false ↔
        ∃ known, Fields.get? fields "fixAvailable" = some (.bool known) := by
      cases hpart : Fields.get? fields "fixAvailable" with
      | none => simp [objectOrAbsent]
      | some v =>
        rw [hpart] at hfix
        cases v with
        | bool b => simp [objectOrAbsent]
        | obj fs => simp [objectOrAbsent]
        | _ => cases hfix
    rw [reads, hseverity, Bool.true_and, Bool.and_eq_false_iff, hvia, hfixed, or_assoc]
    rfl
  | _ => cases h

theorem reads_rust_of_shaped {v : Json} (h : shaped .rust v = true) :
    reads .rust v = false ↔ Stops .rust v := by
  cases v with
  | obj fields =>
    obtain ⟨hparts, hlist⟩ := Bool.and_eq_true_iff.1 h
    rw [reads, hparts, Bool.true_and]
    exact beginsOrAbsent_of_list hlist
  | _ => cases h

/-- **In the shape of the audit, a vulnerability that cannot be read is one that stops a scan.** -/
theorem reads_of_shaped {a : Audit} {v : a.Entry} (h : a.shaped v = true) :
    a.reads v = false ↔ a.Stops v := by
  cases a with
  | python => exact reads_python_of_shaped h
  | javascript => exact reads_javascript_of_shaped h
  | rust => exact reads_rust_of_shaped h

/-! ## Findings and vulnerabilities -/

/-- The findings are made of what the report lists. -/
theorem run_scan_of_listed (a : Audit) (path : String) {w : World} {report : Json} {vs : List a.Entry}
    (hfault : w.nextScript.fault = none) (hreport : Json.parseString w.nextScript.stdout = .ok report)
    (hlisted : a.listed report = some vs) :
    (a.scan path).run.run w = (.ok (untilFailure a.read vs), w.afterCommand (a.command path)) := by
  have hprinted : a.printed ⟨w.nextScript.stdout, w.nextScript.stderr, w.nextScript.code⟩ = .ok vs :=
    printed_of_listed hreport hlisted
  rw [run_scan a path hfault, hprinted]
  rfl

/-- **What an audit reports is lost from the first vulnerability that cannot be read.** A scan has
one finding for each vulnerability before it, in order, and so for every vulnerability exactly if
all can be read. In the shape of the audit, those that cannot be read are those that stop a scan. -/
theorem scan_findings_iff (a : Audit) (path : String) {w : World} {report : Json} {vs : List a.Entry}
    (hfault : w.nextScript.fault = none) (hreport : Json.parseString w.nextScript.stdout = .ok report)
    (hlisted : a.listed report = some vs) :
    ∃ fs w', (a.scan path).run.run w = (.ok fs, w') ∧
      fs.map Identity.ofFinding = (vs.takeWhile a.reads).map a.identity ∧
      (fs.length = vs.length ↔ ∀ v ∈ vs, a.reads v = true) ∧
      ∀ v, a.shaped v = true → (a.reads v = false ↔ a.Stops v) := by
  have hreads : (fun v => (a.read v).isOk) = a.reads := funext a.read_isOk
  refine ⟨untilFailure a.read vs, _, run_scan_of_listed a path hfault hreport hlisted, ?_, ?_, ?_⟩
  · rw [← hreads]
    exact map_untilFailure (fun v f hf => identity_read hf) vs
  · rw [← hreads]
    exact length_untilFailure_eq_iff a.read vs
  · intro v hv
    exact reads_of_shaped hv

/-- Two packages; that there is a fix for the second is said, but not which. -/
def twoPackages : Fields :=
  [("lodash", .obj [("severity", .str "high"), ("via", .arr [.obj [("cve", .str "CVE-2021-23337")]]),
      ("range", .str "<4.17.21"), ("fixAvailable", .obj [("version", .str "4.17.21")])]),
    ("request", .obj [("severity", .str "moderate"), ("via", .arr [.obj [("cve", .str "CVE-2023-28155")]]),
      ("range", .str "*"), ("fixAvailable", .bool true)])]

/-- The first package is found, and the second is not. -/
theorem scan_findings_of_two_packages :
    let report : Json := .obj [("vulnerabilities", .obj twoPackages)]
    listed .javascript report = some twoPackages ∧
    ∃ fs w', (Dependencies.javascript ".").run.run { processes := [{ stdout := report.compact }] } =
        (.ok fs, w') ∧
      fs.map Identity.ofFinding = [⟨.str "CVE-2021-23337", .str "lodash", .str "<4.17.21"⟩] ∧
      fs.length ≠ twoPackages.length := by
  have hlisted : listed .javascript (.obj [("vulnerabilities", .obj twoPackages)]) =
      some twoPackages := rfl
  obtain ⟨fs, w', hrun, hfs, hlength, -⟩ := scan_findings_iff .javascript "."
    (w := { processes := [{ stdout := (Json.obj [("vulnerabilities", .obj twoPackages)]).compact }] })
    rfl (Json.parseString_compact (by decide)) hlisted
  refine ⟨hlisted, fs, w', hrun, hfs, ?_⟩
  intro heq
  have hall := hlength.1 heq _ (List.mem_cons_of_mem _ List.mem_cons_self)
  cases hall

/-- Three vulnerabilities, the second of which no version fixes. -/
def threeVulnerabilities : List Json :=
  [.obj [("id", .str "PYSEC-1"), ("name", .str "a"), ("version", .str "1.0"),
      ("fix_versions", .arr [.str "1.1"])],
    .obj [("id", .str "PYSEC-2"), ("name", .str "b"), ("version", .str "2.0"),
      ("fix_versions", .arr [])],
    .obj [("id", .str "PYSEC-3"), ("name", .str "c"), ("version", .str "3.0"),
      ("fix_versions", .arr [.str "3.1"])]]

/-- Only the first of the three is found. -/
theorem scan_loses_unfixed :
    let report : Json := .obj [("vulnerabilities", .arr threeVulnerabilities)]
    listed .python report = some threeVulnerabilities ∧
    (∀ v ∈ threeVulnerabilities, shaped .python v = true) ∧
    ∃ fs w', (Dependencies.python ".").run.run { processes := [{ stdout := report.compact, code := 1 }] } =
        (.ok fs, w') ∧ fs.length = 1 ∧ threeVulnerabilities.length = 3 := by
  have hlisted : listed .python (.obj [("vulnerabilities", .arr threeVulnerabilities)]) =
      some threeVulnerabilities := rfl
  have hrun := run_scan_of_listed .python "."
    (w := { processes := [{
      stdout := (Json.obj [("vulnerabilities", .arr threeVulnerabilities)]).compact, code := 1 }] })
    rfl (Json.parseString_compact (by decide)) hlisted
  refine ⟨hlisted, ?_, _, _, hrun, rfl, rfl⟩
  simp only [threeVulnerabilities, List.forall_mem_cons, List.not_mem_nil, false_implies, implies_true]
  decide

end Audit

end SecureReview.Scan.Dependencies
