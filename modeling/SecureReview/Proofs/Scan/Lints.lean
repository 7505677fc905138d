import SecureReview.Proofs.Json.Reading
import SecureReview.Proofs.Scan.Tools
import SecureReview.Proofs.Text.Search
/-!
# Lints, line by line

The compiler prints one value a line, and a lint is found by the line that
holds it. So the findings of an output are those of its lines, one after
the other (`toOption_readLines`), as long as every line can be read. A
line that holds a value of another shape, such as a message that has no
lint, **silences all the others** (`lint_append_iff`).
-/

namespace SecureReview

namespace Text

theorem fullLines_ne_nil {t : List Char} (h : t ≠ []) : fullLines t ≠ [] := by
  fun_cases fullLines t with
  | case1 => exact absurd rfl h
  | case2 => simp
  | case3 => simp
  | case4 => simp
  | case5 => simp

/-- A character that does not end a line belongs to the first line. -/
theorem fullLines_cons_of_not_break {c : Char} (hc : isLineBreak c = false) (t : List Char) :
    fullLines (c :: t) = match fullLines t with
      | [] => [[c]]
      | l :: ls => (c :: l) :: ls := by
  have hreturn : c ≠ '\r' := by
    rintro rfl
    cases hc
  rw [fullLines.eq_3 c t fun _ hc' _ => hreturn hc', hc]
  rfl

/-- A character that does not end a line can be put before a text in which the feed does. -/
theorem fullLines_cons_append_feed {c : Char} {t b : List Char} (hc : isLineBreak c = false)
    (h : fullLines (t ++ '\n' :: b) = fullLines (t ++ ['\n']) ++ fullLines b) :
    fullLines (c :: t ++ '\n' :: b) = fullLines (c :: t ++ ['\n']) ++ fullLines b := by
  obtain ⟨l, ls, hlines⟩ := List.exists_cons_of_ne_nil (fullLines_ne_nil (t := t ++ ['\n']) (by simp))
  rw [List.cons_append, List.cons_append, fullLines_cons_of_not_break hc,
    fullLines_cons_of_not_break hc, h, hlines]
  rfl

/-- **A line feed ends a line**, whatever stands before and after it. -/
theorem fullLines_append_feed (a b : List Char) :
    fullLines (a ++ '\n' :: b) = fullLines (a ++ ['\n']) ++ fullLines b := by
  fun_induction fullLines a with
  | case1 => rfl
  | case2 t ih =>
    rw [List.cons_append, List.cons_append, fullLines, ih]
    rfl
  | case3 c t hpair hbreak ih =>
    by_cases hfeed : c = '\r' ∧ t = []
    · -- the feed joins a carriage return that stands before it
      obtain ⟨rfl, rfl⟩ := hfeed
      rfl
    · have hapart (rest t' : List Char) (hc : c = '\r') (ht : t ++ '\n' :: rest = '\n' :: t') :
          False := by
        cases t with
        | nil => exact hfeed ⟨hc, rfl⟩
        | cons d t =>
          obtain ⟨rfl, -⟩ := List.cons.inj ht
          exact hpair t hc rfl
      rw [List.cons_append, List.cons_append, fullLines.eq_3 _ _ (hapart b), if_pos hbreak,
        fullLines.eq_3 _ _ (hapart []), if_pos hbreak, ih]
      rfl
  | case4 c t _ hbreak _ ih => exact fullLines_cons_append_feed (Bool.eq_false_iff.2 hbreak) ih
  | case5 c t _ hbreak l ls _ ih => exact fullLines_cons_append_feed (Bool.eq_false_iff.2 hbreak) ih

theorem fullLines_of_no_break {t : List Char} (h : ∀ c ∈ t, isLineBreak c = false) :
    fullLines (t ++ ['\n']) = [t ++ ['\n']] := by
  induction t with
  | nil => rfl
  | cons c t ih =>
    obtain ⟨hc, ht⟩ := List.forall_mem_cons.1 h
    rw [List.cons_append, fullLines_cons_of_not_break hc, ih ht]

end Text

namespace Scan.Cargo

/-! ## Outputs and their lines -/

/-- The lines of an output. -/
def outputLines (output : String) : List String :=
  (Text.bareLines output.toList).map String.ofList

/-- The output that prints some lines. -/
def printed (lines : List String) : String :=
  String.join (lines.map (· ++ "\n"))

/-- The lines of an output are those of each line that was printed; a line that holds a break is
more than one. -/
theorem outputLines_printed (lines : List String) :
    outputLines (printed lines) = lines.flatMap fun line => outputLines (line ++ "\n") := by
  induction lines with
  | nil => rfl
  | cons line lines ih =>
    have hprinted : printed (line :: lines) = line ++ "\n" ++ printed lines := by
      rw [printed, List.map_cons, String.join_cons]
      rfl
    have htext : (line ++ "\n" ++ printed lines).toList =
        line.toList ++ '\n' :: (printed lines).toList := by
      simp
    rw [List.flatMap_cons, ← ih, hprinted, outputLines, htext, Text.bareLines,
      Text.fullLines_append_feed, List.map_append, List.map_append]
    simp [outputLines, Text.bareLines]

/-- A line that holds no break is one line. -/
theorem outputLines_of_no_break {line : String}
    (h : (line.toList.any Text.isLineBreak) = false) : outputLines (line ++ "\n") = [line] := by
  replace h : ∀ c ∈ line.toList, Text.isLineBreak c = false := by simpa using h
  have htext : (line ++ "\n").toList = line.toList ++ ['\n'] := by simp
  have hbare : (line.toList ++ ['\n']).takeWhile (fun c => !Text.isLineBreak c) = line.toList := by
    rw [List.takeWhile_append_of_pos fun c hc => by rw [h c hc]; rfl]
    simp [Text.isLineBreak]
  rw [outputLines, htext, Text.bareLines, Text.fullLines_of_no_break h, List.map_singleton,
    List.map_singleton, hbare, String.ofList_toList]

/-! ## One line -/

/-- The finding of one line. -/
def lineFinding? (line : String) : Except Failure (Option Json) := do
  match ← lintMessage? line with
  | none => return none
  | some message => lintFinding? message

/-- A line that cannot be read. -/
def trips (line : String) : Bool :=
  !(lineFinding? line).isOk

/-- The findings of one line: at most one. -/
def lineFindings (line : String) : List Json :=
  ((lineFinding? line).toOption.bind id).toList

/-- The findings of some lines: all messages are read before a finding is made. -/
def readLines (lines : List String) : Except Failure (List Json) := do
  let messages ← lines.mapM lintMessage?
  lintFindings (.arr (messages.filterMap id))

/-- The findings of one message more. -/
theorem toOption_lintFindings_cons (message : Json) (messages : List Json) :
    (lintFindings (.arr (message :: messages))).toOption =
      (lintFinding? message).toOption.bind fun found =>
        (lintFindings (.arr messages)).toOption.map (found.toList ++ ·) := by
  simp only [lintFindings, Json.items, bind, Except.bind, List.mapM_cons]
  cases lintFinding? message with
  | error e => rfl
  | ok found =>
    cases messages.mapM lintFinding? with
    | error e => rfl
    | ok rest => cases found <;> rfl

/-- **One line more**: it cannot be read, or its findings come first. -/
theorem toOption_readLines_cons (line : String) (lines : List String) :
    (readLines (line :: lines)).toOption = if trips line then none else
      (readLines lines).toOption.map (lineFindings line ++ ·) := by
  rw [trips, lineFindings, lineFinding?, readLines, readLines, List.mapM_cons]
  cases lintMessage? line with
  | error e => rfl
  | ok message? =>
    cases lines.mapM lintMessage? with
    | error e =>
      -- the lines that follow cannot be read, whatever this one says
      exact (ite_self none).symm
    | ok messages =>
      cases message? with
      | none => exact Option.map_id'.symm
      | some message =>
        refine (toOption_lintFindings_cons message (messages.filterMap id)).trans ?_
        have hok : (lintFinding? message).isOk = (lintFinding? message).toOption.isSome := by
          cases lintFinding? message <;> rfl
        simp only [bind, Except.bind, hok]
        cases (lintFinding? message).toOption with
        | none => rfl
        | some found => rfl

/-- **The findings of some lines** are those of the lines, unless one of them cannot be read. -/
theorem toOption_readLines (lines : List String) :
    (readLines lines).toOption =
      if lines.any trips then none else some (lines.flatMap lineFindings) := by
  induction lines with
  | nil => rfl
  | cons line lines ih =>
    rw [toOption_readLines_cons, ih, List.any_cons, List.flatMap_cons]
    cases trips line with
    | true => rfl
    | false => cases lines.any trips <;> rfl

/-! ## Lines that can be read -/

/-- A value in which a text can be looked for. -/
def isSearchable : Json → Bool
  | .str _ => true
  | .arr _ => true
  | .obj _ => true
  | _ => false

/-- A lint that bears on security occurs in the value. -/
def bearsOnSecurity (lint : Json) : Bool :=
  securityLints.any fun name => (lint.includes name).toOption.getD false

/-- The value counts as absent, or is a list with such an item first. -/
def absentOrFirst (p : Json → Bool) : Json → Bool
  | .arr (v :: _) => p v
  | v => !v.truthy

def isObject : Json → Bool
  | .obj _ => true
  | _ => false

/-- A place in the code: if it has a text, this begins with an object. -/
def isPlace : Json → Bool
  | .obj place => absentOrFirst isObject ((Fields.get? place "text").getD .null)
  | _ => false

/-- A message of the compiler: it has an object for its lint, and if the lint bears on security, it
points nowhere or to a place first. -/
def isMessage : Json → Bool
  | .obj message =>
    match (Fields.get? message "code").getD (.obj []) with
    | .obj code =>
      let lint := (Fields.get? code "code").getD (.str "")
      isSearchable lint && (!bearsOnSecurity lint ||
        absentOrFirst isPlace ((Fields.get? message "spans").getD (.arr [])))
    | _ => false
  | _ => false

/-- A line of the compiler: an object, and a message if it says that it is one. -/
def isLegible : Json → Bool
  | .obj line =>
    !((Fields.get? line "reason").getD .null).same (.str "compiler-message") ||
      isMessage ((Fields.get? line "message").getD (.obj []))
  | _ => false

theorem includes_isOk (lint : Json) (name : String) :
    (lint.includes name).isOk = isSearchable lint := by
  cases lint <;> rfl

theorem mapM_includes {lint : Json} (h : isSearchable lint = true) (names : List String) :
    names.mapM lint.includes =
      .ok (names.map fun name => (lint.includes name).toOption.getD false) := by
  induction names with
  | nil => rfl
  | cons name names ih =>
    have hname := includes_isOk lint name
    rw [List.mapM_cons, ih, List.map_cons]
    cases hincludes : lint.includes name with
    | error e =>
      rw [hincludes, h] at hname
      cases hname
    | ok b => rfl

section Message

variable {message code : Fields}

/-- Whether a message bears on security can be told if its lint can be searched. -/
theorem isSecurityLint_of_searchable
    (hcode : (Fields.get? message "code").getD (.obj []) = .obj code)
    (h : isSearchable ((Fields.get? code "code").getD (.str "")) = true) :
    isSecurityLint (.obj message) = .ok (bearsOnSecurity ((Fields.get? code "code").getD (.str ""))) := by
  simp only [isSecurityLint, lintOf, part, Json.getD_obj, bind, Except.bind, hcode, mapM_includes h]
  simp [pure, Except.pure, List.any_map, bearsOnSecurity]

theorem exists_isSecurityLint_error
    (hcode : (Fields.get? message "code").getD (.obj []) = .obj code)
    (h : isSearchable ((Fields.get? code "code").getD (.str "")) = false) :
    ∃ e, isSecurityLint (.obj message) = .error e := by
  simp only [isSecurityLint, lintOf, part, Json.getD_obj, bind, Except.bind, hcode]
  generalize (Fields.get? code "code").getD (.str "") = lint at h
  have hall := Run.except_mapM_isOk lint.includes securityLints
  cases hmap : securityLints.mapM lint.includes with
  | error e => exact ⟨e, rfl⟩
  | ok found =>
    rw [hmap, securityLints, List.all_cons, includes_isOk, h] at hall
    cases hall

end Message

theorem absentOrFirst_of_absent {p : Json → Bool} {v : Json} (h : v.truthy = false) :
    absentOrFirst p v = true := by
  rw [absentOrFirst.eq_2 p v, h]
  · rfl
  · rintro x vs rfl
    cases h

/-- What is made of the first item of a value. A text has no item that is an object. -/
theorem first_isOk {α : Type} {v : Json} (hv : v.truthy = true) {g : Json → Except Failure α}
    {p : Json → Bool} (hg : ∀ x, (g x).isOk = p x) (hp : ∀ s, p (.str s) = false) :
    (v.first >>= g).isOk = absentOrFirst p v := by
  have hother (hlist : ∀ x vs, v = .arr (x :: vs) → False) : absentOrFirst p v = false := by
    rw [absentOrFirst.eq_2 p v hlist, hv]
    rfl
  cases v with
  | arr vs =>
    cases vs with
    | nil => cases hv
    | cons x vs => exact hg x
  | str s =>
    rw [hother (fun _ _ h => by cases h), Json.first]
    cases s.toList with
    | nil => rfl
    | cons c cs => exact (hg _).trans (hp _)
  | _ =>
    rw [hother (fun _ _ h => by cases h)]
    rfl

/-- A finding can be made of a message that points nowhere or to a place. -/
theorem lintFinding?_isOk {message code : Fields}
    (hcode : (Fields.get? message "code").getD (.obj []) = .obj code) :
    (lintFinding? (.obj message)).isOk =
      absentOrFirst isPlace ((Fields.get? message "spans").getD (.arr [])) := by
  simp only [lintFinding?, lintOf, part, Json.getD_obj, hcode, bind, Except.bind]
  generalize (Fields.get? message "spans").getD (.arr []) = spans
  cases hspans : spans.truthy with
  | false =>
    rw [absentOrFirst_of_absent hspans]
    rfl
  | true =>
    refine first_isOk hspans (fun place => ?_) (fun s => rfl)
    cases place with
    | obj place =>
      simp only [Json.get, Json.getD_obj, isPlace]
      generalize (Fields.get? place "text").getD .null = text
      cases htext : text.truthy with
      | false =>
        rw [absentOrFirst_of_absent htext]
        rfl
      | true => exact first_isOk htext (fun v => by cases v <;> rfl) fun s => rfl
    | _ => rfl

/-- The finding of a message, if it bears on security. -/
def messageFinding? (message : Json) : Except Failure (Option Json) := do
  if ← isSecurityLint message then lintFinding? message else return none

theorem messageFinding?_isOk (message : Json) : (messageFinding? message).isOk = isMessage message := by
  cases message with
  | obj message =>
    rw [isMessage, messageFinding?]
    cases hcode : (Fields.get? message "code").getD (.obj []) with
    | obj code =>
      dsimp only
      rw [← lintFinding?_isOk hcode]
      cases hlint : isSearchable ((Fields.get? code "code").getD (.str "")) with
      | false =>
        obtain ⟨e, he⟩ := exists_isSecurityLint_error hcode hlint
        rw [he]
        rfl
      | true =>
        rw [isSecurityLint_of_searchable hcode hlint]
        cases bearsOnSecurity ((Fields.get? code "code").getD (.str "")) <;> rfl
    | _ =>
      rw [isSecurityLint, lintOf, part, Json.getD_obj, hcode]
      rfl
  | _ => rfl

theorem lineFinding?_isOk {line : String} (hblank : Text.strip line ≠ "") {data : Json}
    (hdata : Json.parseString line = .ok data) : (lineFinding? line).isOk = isLegible data := by
  rw [lineFinding?, lintMessage?, if_neg (by simpa using hblank), hdata]
  cases data with
  | obj fields =>
    simp only [Json.get, part, Json.getD_obj, isLegible, ← messageFinding?_isOk, messageFinding?, bind,
      Except.bind]
    cases ((Fields.get? fields "reason").getD .null).same (.str "compiler-message") with
    | false => rfl
    | true =>
      cases isSecurityLint ((Fields.get? fields "message").getD (.obj [])) with
      | error e => rfl
      | ok b => cases b <;> rfl
  | _ => rfl

/-- A line without a message can be read. -/
theorem trips_of_silent {line : String} (h : lintMessage? line = .ok none) : trips line = false := by
  rw [trips, lineFinding?, h]
  rfl

/-- A line that holds a value which is not legible. -/
def HoldsIllegible (line : String) : Prop :=
  Text.strip line ≠ "" ∧ ∃ data, Json.parseString line = .ok data ∧ isLegible data = false

/-- **A line can be read** if it is blank, not JSON, or legible. -/
theorem trips_iff (line : String) : trips line = true ↔ HoldsIllegible line := by
  by_cases hblank : Text.strip line = ""
  · have hsilent : lintMessage? line = .ok none := by
      rw [lintMessage?, if_pos (by simpa using hblank)]
    rw [trips_of_silent hsilent]
    exact iff_of_false Bool.false_ne_true fun h => h.1 hblank
  · cases hdata : Json.parseString line with
    | error flaw =>
      have hsilent : lintMessage? line = .ok none :=
        Tool.lintMessage?_of_not_json (by rw [hdata]; rfl)
      rw [trips_of_silent hsilent]
      refine iff_of_false Bool.false_ne_true ?_
      rintro ⟨-, data, hok, -⟩
      rw [hdata] at hok
      cases hok
    | ok data =>
      rw [trips, lineFinding?_isOk hblank hdata, Bool.not_eq_true']
      constructor
      · intro h
        exact ⟨hblank, data, hdata, h⟩
      · rintro ⟨-, data', hok, h⟩
        rw [hdata] at hok
        cases hok
        exact h

/-! ## Outputs one after the other -/

/-- What a lint of a project gives when the compiler prints some lines. -/
def lintOn (path : String) (w : World) (lines : List String) : Except Failure (List Json) :=
  ((lint path).run.run { w with processes := { stdout := printed lines } :: w.processes }).1

/-- **A lint has the findings of all lines, or none.** -/
theorem lintOn_eq (path : String) (w : World) (lines : List String) : lintOn path w lines =
    .ok (if (outputLines (printed lines)).any trips then []
      else (outputLines (printed lines)).flatMap lineFindings) := by
  have hrun : (lint path).run.run { w with processes := { stdout := printed lines } :: w.processes } = _ :=
    Tool.run_run path .lint _
  have hread : (readLints (printed lines)).toOption = _ :=
    toOption_readLines (outputLines (printed lines))
  have hfound : Tool.lint.found { stdout := printed lines } =
      (readLints (printed lines)).toOption.getD [] := rfl
  rw [lintOn, hrun]
  refine congrArg Except.ok (hfound.trans ?_)
  rw [hread]
  cases (outputLines (printed lines)).any trips <;> rfl

/-- Among the lines there is one that holds something illegible. -/
def SomeIllegible (lines : List String) : Prop :=
  ∃ line ∈ outputLines (printed lines), HoldsIllegible line

theorem any_trips_iff (lines : List String) :
    (outputLines (printed lines)).any trips = true ↔ SomeIllegible lines := by
  rw [List.any_eq_true]
  simp only [trips_iff, SomeIllegible]

/-- A lint that bears on security, as the compiler prints it. -/
def panicMessage : Json :=
  .obj [("reason", .str "compiler-message"),
    ("message", .obj [("code", .obj [("code", .str "clippy::panic")]), ("spans", .arr [.obj []])])]

/-- A message of the compiler that is no lint. -/
def plainMessage : Json :=
  .obj [("reason", .str "compiler-message"), ("message", .obj [("code", .null)])]

theorem outputLines_panicMessage :
    outputLines (panicMessage.compact ++ "\n") = [panicMessage.compact] :=
  outputLines_of_no_break (by decide +kernel)

theorem outputLines_plainMessage :
    outputLines (plainMessage.compact ++ "\n") = [plainMessage.compact] :=
  outputLines_of_no_break (by decide +kernel)

/-- A record that is printed is no blank line. -/
theorem strip_compact_obj (fs : Fields) : (Text.strip (Json.obj fs).compact == "") = false := by
  obtain ⟨t, ht⟩ : ∃ t, Json.render (.obj fs) = '\x7b' :: t := by
    cases fs <;> exact ⟨_, rfl⟩
  rw [beq_eq_false_iff_ne, Text.strip, Json.compact, String.toList_ofList, ht, ne_eq,
    ← String.toList_inj, String.toList_ofList]
  exact Text.trim_cons_ne_nil (by decide) t

theorem lineFinding?_panicMessage :
    ∃ f, lineFinding? panicMessage.compact = .ok (some f) := by
  have hblank : (Text.strip panicMessage.compact == "") = false := strip_compact_obj _
  rw [lineFinding?, lintMessage?, hblank, Json.parseString_compact (by decide)]
  exact ⟨_, rfl⟩

theorem lineFinding?_plainMessage : ∃ e, lineFinding? plainMessage.compact = .error e := by
  have hblank : (Text.strip plainMessage.compact == "") = false := strip_compact_obj _
  rw [lineFinding?, lintMessage?, hblank, Json.parseString_compact (by decide)]
  exact ⟨_, rfl⟩

end Scan.Cargo

end SecureReview
