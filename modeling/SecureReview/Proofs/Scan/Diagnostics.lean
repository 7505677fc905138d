import Mathlib.Data.List.Forall2
import SecureReview.Json.Access
import SecureReview.Proofs.Json.Numerals
import SecureReview.Proofs.Text.Search
import SecureReview.Scan.Cpp
/-!
# Diagnostics printed one a line

A diagnostic is printed with its place, its level, a message and the check
that it is from (`Diagnostic.print`). The message may hold anything, also
colons and brackets, and still **the number of the line, the check and the
message are read back**: the place has no colons of its own, and the check
stands in the last brackets (`finding?_print`).

The level is not read from its place. A line counts as an error if `: error:`
occurs anywhere in it, so a warning whose message speaks of one is taken for
an error (`isMisleading`).
-/

namespace SecureReview

/-! ## Numerals -/

namespace Text

open Number (digits)

variable {c : Char} {t : List Char}

theorem digitValue?_of_isDigit (h : c.isDigit = true) : digitValue? c = some (c.toNat - 48) := by
  have hrange : 48 ≤ c.toNat ∧ c.toNat ≤ 57 := Char.isDigit_iff_toNat.1 h
  rw [digitValue?, if_pos (by simpa using hrange)]

/-- Digits are read one by one, and at least one has to be there. -/
theorem digitRun?_of_isDigit (h : ∀ c ∈ t, c.isDigit = true) (hne : t ≠ []) (afterDigit : Bool) :
    digitRun? afterDigit t = some (t.map fun c => c.toNat - 48) := by
  induction t generalizing afterDigit with
  | nil => exact absurd rfl hne
  | cons c t ih =>
    obtain ⟨hc, ht⟩ := List.forall_mem_cons.1 h
    have hmark : (c == '_') = false := by
      rw [beq_eq_false_iff_ne]
      rintro rfl
      exact absurd hc (by decide)
    have hrest : digitRun? true t = some (t.map fun c => c.toNat - 48) := by
      by_cases hnil : t = []
      · rw [hnil]
        rfl
      · exact ih ht hnil true
    rw [digitRun?, hmark, if_neg Bool.false_ne_true, digitValue?_of_isDigit hc]
    simp only [hrest, Option.map_some, List.map_cons]

theorem takeSign_of_isDigit (h : ∀ c ∈ t, c.isDigit = true) : takeSign t = (false, t) := by
  unfold takeSign
  split
  · exact absurd (h '-' List.mem_cons_self) (by decide)
  · exact absurd (h '+' List.mem_cons_self) (by decide)
  · rfl

/-- **A number is read back** from its digits, unless they are too many. -/
theorem readInt_digits (n : ℕ) : readInt (String.ofList (digits n)) =
    if maxDigits < (digits n).length then .error (.tooLong (digits n).length) else .ok n := by
  have hdigit : ∀ c ∈ digits n, c.isDigit = true := fun c hc => Json.isDigit_digits hc
  have hblank : ∀ c ∈ digits n, isBlank c = false := by
    intro c hc
    have hrange : 48 ≤ c.toNat ∧ c.toNat ≤ 57 := Char.isDigit_iff_toNat.1 (hdigit c hc)
    simp only [isBlank, Bool.or_eq_false_iff, Bool.and_eq_false_iff, decide_eq_false_iff_not,
      beq_eq_false_iff_ne]
    omega
  have hvalue : numberOf ((digits n).map fun c => c.toNat - 48) = n := by
    rw [numberOf, List.foldl_map]
    exact Json.digitsValue_digits n
  rw [readInt, String.toList_ofList, trim_eq_self hblank, takeSign_of_isDigit hdigit]
  simp only [digitRun?_of_isDigit hdigit (Json.digits_ne_nil n), List.length_map, hvalue]
  rfl

end Text

namespace Scan.ClangTidy

/-! ## Diagnostics -/

/-- How serious a diagnostic is. -/
inductive Level where
  | warning
  | error
  deriving DecidableEq

/-- A level as it is printed. -/
def Level.name : Level → String
  | .warning => "warning"
  | .error => "error"

/-- A diagnostic that fits on a line and can be told apart on it: there is no colon in the name of
the file, and no bracket in that of the check. -/
structure Diagnostic where
  file : String
  line : ℕ
  column : ℕ
  level : Level
  message : String
  check : String
  file_plain : ':' ∉ file.toList ∧ '\n' ∉ file.toList
  message_plain : '\n' ∉ message.toList
  check_plain : '[' ∉ check.toList ∧ ']' ∉ check.toList ∧ '\n' ∉ check.toList

namespace Diagnostic

variable {d : Diagnostic} {path : String}

/-- The line on which a diagnostic is printed. -/
def print (d : Diagnostic) : String :=
  s!"{d.file}:{d.line}:{d.column}: {d.level.name}: {d.message} [{d.check}]"

/-- The number of the line is not too long to be converted. -/
def isNumbered (d : Diagnostic) : Bool :=
  (Number.digits d.line).length ≤ Text.maxDigits

/-- A warning in which the mark of an error occurs: at the start of the message, where the colon
and the blank behind the level complete it, or elsewhere in the message or in the check. -/
def isMisleading (d : Diagnostic) : Bool :=
  d.level = .warning && (Text.startsWith d.message "error:" || Text.contains d.message ": error:" ||
    Text.contains d.check ": error:")

/-- The finding that is made of a diagnostic about a file. -/
def finding (path : String) (d : Diagnostic) : Json :=
  .obj [
    ("file", .str path),
    ("line", .int d.line),
    ("severity", .str (if d.level = .error ∨ d.isMisleading then "HIGH" else "MEDIUM")),
    ("rule_id", .str d.check),
    ("description", .str (Text.strip s!"{d.level.name}: {d.message}")),
    ("tool", .str "clang-tidy")]

/-- What a finding should say of its diagnostic. -/
structure ReadAs (d : Diagnostic) (f : Json) : Prop where
  line : f.part "line" = .int d.line
  rule : f.part "rule_id" = .str d.check
  severity : f.part "severity" = .str "HIGH" ↔ d.level = .error

/-! ## The parts of a line -/

/-- What is behind the level: the message, and the check in brackets. -/
def tail (d : Diagnostic) : List Char :=
  ':' :: ' ' :: (d.message.toList ++ ' ' :: '[' :: (d.check.toList ++ [']']))

/-- What is behind the place. -/
def remark (d : Diagnostic) : List Char :=
  ' ' :: (d.level.name.toList ++ d.tail)

theorem toList_print (d : Diagnostic) : d.print.toList = d.file.toList ++ ':' ::
    (Number.digits d.line ++ ':' :: (Number.digits d.column ++ ':' :: d.remark)) := by
  simp [print, remark, tail, toString, Number.digits]

theorem not_mem_digits {c : Char} (h : c.isDigit = false) (n : ℕ) : c ∉ Number.digits n := by
  intro hc
  rw [Json.isDigit_digits hc] at h
  cases h

/-- The place is cut off at its colons, and the rest can be put together again. -/
theorem splitAtEach_print (d : Diagnostic) : Text.splitAtEach [':'] d.print.toList =
    d.file.toList :: Number.digits d.line :: Number.digits d.column ::
      Text.splitAtEach [':'] d.remark := by
  have hcolon (n : ℕ) : ':' ∉ Number.digits n := not_mem_digits (by decide) n
  rw [toList_print, Text.splitAtEach_append d.file_plain.1, Text.splitAtEach_append (hcolon _),
    Text.splitAtEach_append (hcolon _)]

theorem not_mem_print (d : Diagnostic) : '\n' ∉ d.print.toList := by
  have hlevel : '\n' ∉ d.level.name.toList := by cases d.level <;> decide
  have hdigits (n : ℕ) : '\n' ∉ Number.digits n := not_mem_digits (by decide) n
  simp [toList_print, remark, tail, d.file_plain, d.message_plain, d.check_plain, hlevel, hdigits]

/-- **The check is in the last brackets**, whatever the message holds. -/
theorem splitMessage_remark (d : Diagnostic) : splitMessage d.remark =
    (d.check.toList, Text.trim s!"{d.level.name}: {d.message}".toList) := by
  obtain ⟨hopen, -, -⟩ := d.check_plain
  let text : List Char := s!"{d.level.name}: {d.message}".toList
  let front : List Char := ' ' :: text ++ [' ']
  have hremark : d.remark = front ++ '[' :: (d.check.toList ++ [']']) := by
    simp [front, text, remark, tail, toString]
  have hclosed : d.remark = (front ++ '[' :: d.check.toList) ++ [']'] := by
    simp [hremark]
  have hfirst : Text.lastIndex? '[' d.remark = some front.length := by
    rw [hremark, Text.lastIndex?_append_cons (by simp [hopen])]
  have hlast : Text.lastIndex? ']' d.remark = some (front ++ '[' :: d.check.toList).length := by
    rw [hclosed, Text.lastIndex?_append_cons List.not_mem_nil]
  have hmessage : Text.trim (d.remark.take front.length) = Text.trim text := by
    rw [hremark, List.take_left, Text.trim_append_blank (by decide), Text.trim_cons_blank (by decide)]
  have hcheck : (d.remark.take (front ++ '[' :: d.check.toList).length).drop (front.length + 1) =
      d.check.toList := by
    rw [hclosed, List.take_left, List.drop_append, List.drop_of_length_le (by omega),
      List.nil_append, Nat.add_sub_cancel_left, List.drop_one, List.tail_cons]
  simp only [splitMessage, hfirst, hlast, hmessage, hcheck, text]

/-! ## The level -/

/-- The mark of a level. -/
def mark (level : Level) : List Char :=
  ':' :: ' ' :: (level.name.toList ++ [':'])

theorem mark_error : ": error:".toList = mark .error := by decide

theorem mark_warning : ": warning:".toList = mark .warning := by decide

/-- The place has no mark: its colons have no blanks behind them. -/
theorem mark_infix_print_iff (level : Level) :
    mark level <:+: d.print.toList ↔ mark level <:+: ':' :: d.remark := by
  have hcolon (n : ℕ) : ':' ∉ Number.digits n := not_mem_digits (by decide) n
  -- a colon and then digits is not the beginning of a mark
  have hskip (n : ℕ) (t : List Char) :
      mark level <:+: ':' :: (Number.digits n ++ ':' :: t) ↔ mark level <:+: ':' :: t := by
    obtain ⟨c, cs, hcs⟩ := List.exists_cons_of_ne_nil (Json.digits_ne_nil n)
    have hc : c ≠ ' ' := by
      rintro rfl
      exact not_mem_digits (by decide) n (hcs ▸ List.mem_cons_self)
    have hprefix : ¬ mark level <+: ':' :: (Number.digits n ++ ':' :: t) := by
      rw [hcs, mark, List.cons_append, List.cons_prefix_cons, List.cons_prefix_cons]
      exact fun h => hc h.2.1.symm
    rw [List.infix_cons_iff, or_iff_right hprefix, mark, Text.infix_append_iff_of_not_mem (hcolon n)]
  rw [toList_print, mark, Text.infix_append_iff_of_not_mem d.file_plain.1, ← mark, hskip, hskip]

/-- A line has the mark of its level. -/
theorem mark_level_occurs (d : Diagnostic) : mark d.level <:+: d.print.toList := by
  rw [mark_infix_print_iff]
  have hprefix : mark d.level <+: ':' :: d.remark :=
    ⟨' ' :: (d.message.toList ++ ' ' :: '[' :: (d.check.toList ++ [']'])), by
      simp [mark, remark, tail]⟩
  exact hprefix.isInfix

/-- Behind the level the mark of an error may occur in the message or in the check. -/
theorem mark_error_infix_tail_iff : mark .error <:+: d.tail ↔
    Text.startsWith d.message "error:" = true ∨ Text.contains d.message ": error:" = true ∨
      Text.contains d.check ": error:" = true := by
  have hbracket : '[' ∉ mark .error ∧ ']' ∉ mark .error := by decide
  have hword : "error:".toList = Level.error.name.toList ++ [':'] := by decide
  have hblank : ' ' ∉ Level.error.name.toList ++ [':'] := by decide
  -- the blank before the bracket cannot belong to a mark, which ends in a colon
  have hconcat (t : List Char) : mark .error <:+: t ++ [' '] ↔ mark .error <:+: t := by
    rw [List.infix_concat_iff]
    refine or_iff_right fun hsuffix => ?_
    obtain ⟨u, hu⟩ := hsuffix
    have hlast := congrArg List.getLast? hu
    rw [mark, List.getLast?_append_of_ne_nil _ (List.cons_ne_nil _ _), List.getLast?_concat] at hlast
    exact absurd hlast (by decide)
  have hparts : d.tail = (':' :: ' ' :: (d.message.toList ++ [' '])) ++ '[' :: (d.check.toList ++ [']']) := by
    simp [tail]
  have hstart : mark .error <+: ':' :: ' ' :: (d.message.toList ++ [' ']) ↔
      "error:".toList <+: d.message.toList := by
    rw [mark, List.cons_prefix_cons, List.cons_prefix_cons, Text.prefix_append_cons_iff hblank, hword]
    simp
  have hmiddle : mark .error <:+: ' ' :: (d.message.toList ++ [' ']) ↔
      mark .error <:+: d.message.toList := by
    rw [List.infix_cons_iff, hconcat]
    refine or_iff_right fun hprefix => ?_
    exact absurd (List.cons_prefix_cons.1 hprefix).1 (by decide)
  have hcheck : mark .error <:+: d.check.toList ++ [']'] ↔ mark .error <:+: d.check.toList := by
    rw [Text.infix_append_cons_iff hbracket.2, List.infix_nil]
    exact or_iff_left (List.cons_ne_nil _ _)
  rw [hparts, Text.infix_append_cons_iff hbracket.1, List.infix_cons_iff, hstart, hmiddle, hcheck,
    or_assoc, Text.contains_iff, Text.contains_iff, mark_error, Text.startsWith,
    List.isPrefixOf_iff_prefix]

/-- **When a line counts as an error.** -/
theorem occurs_error_iff : Text.occurs ": error:".toList d.print.toList = true ↔
    d.level = .error ∨ d.isMisleading = true := by
  rw [Text.occurs_iff, mark_error]
  cases hlevel : d.level with
  | error =>
    have hmark := d.mark_level_occurs
    rw [hlevel] at hmark
    simp [hmark]
  | warning =>
    have hcolon : ':' ∉ ' ' :: Level.warning.name.toList := by decide
    have hprefix : ¬ mark .error <+: ':' :: d.remark := by
      rw [remark, hlevel, mark, List.cons_prefix_cons, List.cons_prefix_cons]
      simp [Level.name]
    have hremark : d.remark = (' ' :: Level.warning.name.toList) ++ d.tail := by
      rw [remark, hlevel, List.cons_append]
    rw [mark_infix_print_iff, List.infix_cons_iff, or_iff_right hprefix, hremark]
    have htail : mark .error <:+: (' ' :: Level.warning.name.toList) ++ d.tail ↔
        mark .error <:+: d.tail := Text.infix_append_iff_of_not_mem hcolon
    rw [htail, mark_error_infix_tail_iff]
    simp [isMisleading, hlevel, or_assoc]

/-! ## Reading what was printed -/

/-- **A diagnostic is read back** from its line, unless the number of the line is too long. -/
theorem finding?_print (d : Diagnostic) (path : String) : finding? path d.print.toList =
    if d.isNumbered then some (d.finding path) else none := by
  have hmarked : (Text.occurs ": error:".toList d.print.toList ||
      Text.occurs ": warning:".toList d.print.toList) = true := by
    have hmark := d.mark_level_occurs
    rw [Bool.or_eq_true, Text.occurs_iff, Text.occurs_iff, mark_error, mark_warning]
    cases hlevel : d.level with
    | error => exact Or.inl (hlevel ▸ hmark)
    | warning => exact Or.inr (hlevel ▸ hmark)
  have hpieces : (Text.splitAtEach [':'] d.remark).isEmpty = false := rfl
  simp only [finding?, hmarked, if_true, splitAtEach_print, hpieces, Text.join_splitAtEach,
    Text.readInt_digits, splitMessage_remark, occurs_error_iff, String.ofList_toList]
  by_cases hlong : Text.maxDigits < (Number.digits d.line).length
  · have hnumbered : d.isNumbered = false := by simpa [isNumbered] using hlong
    rw [hnumbered, if_pos hlong, if_neg Bool.false_ne_true]
    rfl
  · have hnumbered : d.isNumbered = true := by simpa [isNumbered] using hlong
    rw [hnumbered, if_neg hlong, if_pos rfl]
    rfl

/-- The diagnostics one a line; the last line may be ended too. -/
def printed (ds : List Diagnostic) (ended : Bool) : String :=
  Text.unlines (ds.map print) ++ if ended then "\n" else ""

/-- **What was printed is read back**, line by line; an end of the last line adds nothing. -/
theorem read_printed (ds : List Diagnostic) (ended : Bool) (path : String) :
    read (printed ds ended) path = (ds.filter isNumbered).map (finding path) := by
  have hended (text : String) : read (text ++ if ended then "\n" else "") path = read text path := by
    cases ended with
    | false => simp
    | true =>
      rw [read, read, if_pos rfl, String.toList_append, Text.feedLines, Text.feedLines]
      have hsplit := Text.splitAtEach_append_cons '\n' text.toList []
      rw [show "\n".toList = ['\n'] from rfl, hsplit, List.filterMap_append]
      exact List.append_nil _
  have hlines : Text.feedLines (Text.unlines (ds.map print)).toList =
      if ds = [] then [[]] else (ds.map print).map String.toList := by
    by_cases hnil : ds = []
    · rw [hnil]
      rfl
    · rw [if_neg hnil, Text.feedLines_unlines (List.map_eq_nil_iff.not.2 hnil)]
      intro l hl
      obtain ⟨d, -, rfl⟩ := List.mem_map.1 hl
      exact d.not_mem_print
  have hread (ds : List Diagnostic) : (ds.map print).filterMap (fun l => finding? path l.toList) =
      (ds.filter isNumbered).map (finding path) := by
    induction ds with
    | nil => rfl
    | cons d ds ih =>
      rw [List.map_cons, List.filterMap_cons, finding?_print, List.filter_cons]
      split_ifs with hnumbered
      · exact congrArg (d.finding path :: ·) ih
      · exact ih
  rw [printed, hended, read, hlines]
  split_ifs with hnil
  · rw [hnil]
    rfl
  · rw [List.filterMap_map]
    exact hread ds

/-- A finding says what it should, unless a warning was taken for an error. -/
theorem readAs_finding_iff : d.ReadAs (d.finding path) ↔ d.isMisleading = false := by
  have hseverity : (d.finding path).part "severity" = .str "HIGH" ↔
      d.level = .error ∨ d.isMisleading = true := by
    have hpart : (d.finding path).part "severity" =
        .str (if d.level = .error ∨ d.isMisleading then "HIGH" else "MEDIUM") := rfl
    rw [hpart]
    split_ifs with hhigh
    · simpa using hhigh
    · simpa using hhigh
  constructor
  · intro h
    by_contra hmislead
    rw [Bool.not_eq_false] at hmislead
    have hlevel := h.severity.1 (hseverity.2 (Or.inr hmislead))
    simp [isMisleading, hlevel] at hmislead
  · intro h
    refine ⟨rfl, rfl, ?_⟩
    rw [hseverity, h]
    simp

/-- **When diagnostics are read as they were printed.** Whatever the messages are, there is one
finding for each diagnostic whose line number is not too long, in order, with that number and the
check. Its severity is that of the level exactly if the diagnostic is not a warning in which the mark
of an error occurs. -/
theorem diagnostics_read_iff (ds : List Diagnostic) (ended : Bool) (path : String) :
    read (printed ds ended) path = (ds.filter isNumbered).map (finding path) ∧
    (List.Forall₂ ReadAs ds (read (printed ds ended) path) ↔
      ∀ d ∈ ds, d.isNumbered = true ∧ d.isMisleading = false) := by
  refine ⟨read_printed ds ended path, ?_⟩
  rw [read_printed]
  constructor
  · intro h
    have hall : ∀ d ∈ ds, d.isNumbered = true := by
      have hlength := h.length_eq
      rw [List.length_map] at hlength
      exact List.length_filter_eq_length_iff.1 hlength.symm
    rw [List.filter_eq_self.2 hall, List.forall₂_map_right_iff, List.forall₂_same] at h
    exact fun d hd => ⟨hall d hd, readAs_finding_iff.1 (h d hd)⟩
  · intro h
    rw [List.filter_eq_self.2 fun d hd => (h d hd).1, List.forall₂_map_right_iff, List.forall₂_same]
    exact fun d hd => readAs_finding_iff.2 (h d hd).2

/-- A warning about a call that logs an error. -/
def loggedError : Diagnostic where
  file := "a.c"
  line := 3
  column := 5
  level := .warning
  message := "unused result of log(\"fatal: error: retry\")"
  check := "bugprone-unused-return-value"
  file_plain := by decide
  message_plain := by decide
  check_plain := by decide

/-- **A warning is taken for an error**, because its message speaks of one. -/
theorem warning_read_as_error : loggedError.level = .warning ∧ loggedError.isNumbered = true ∧
    (read (printed [loggedError] false) "a.c").map (fun f => (f.part "severity").text) = ["HIGH"] := by
  decide +kernel

end Diagnostic

end Scan.ClangTidy

end SecureReview
