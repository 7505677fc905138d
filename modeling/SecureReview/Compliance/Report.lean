import SecureReview.Json.Loose
import SecureReview.Json.Printer
import SecureReview.Time.Date
import SecureReview.World.Basic
/-!
# Compliance reports

What the findings of a scan mean for three standards. A finding bears on a topic of a standard if its
rule or its description mentions one of the keywords of the topic.
-/

namespace SecureReview.Compliance

/-- A finding with the parts that matter, in lower case. -/
structure Entry where
  finding : Json
  rule : String
  description : String
  severity : Json

/-- The parts of a finding that matter. -/
def Entry.read (f : Json) : Except Failure Entry := do
  let rule ← (← f.getD "rule_id" (.str "")).lowered
  let description ← (← f.getD "description" (.str "")).lowered
  return ⟨f, rule, description, ← f.get "severity"⟩

/-- The entry mentions one of the keywords. -/
def Entry.mentions (keywords : List String) (e : Entry) : Bool :=
  keywords.any (fun k => Text.contains e.rule k || Text.contains e.description k)

/-- The entry has the given severity. -/
def Entry.isRated (e : Entry) (s : String) : Bool :=
  e.severity.same (.str s)

/-- The entries that bear on a topic. -/
def touching (keywords : List String) (es : List Entry) : List Entry :=
  es.filter (Entry.mentions keywords)

/-- A topic passes if nothing bears on it. -/
def verdict (es : List Entry) : Json :=
  .str (if es.isEmpty then "PASS" else "FAIL")

/-- The first ten findings. -/
def topTen (es : List Entry) : Json :=
  .arr ((es.take 10).map Entry.finding)

/-- A hundred less a penalty, but not less than zero. -/
def score (penalty : Nat) : Nat :=
  100 - penalty

/-- The verdict on the whole: the score reaches the threshold. -/
def status (score threshold : Nat) : Json :=
  .str (if threshold ≤ score then "COMPLIANT" else "NON_COMPLIANT")

/-- The number of entries as a value. -/
def count (es : List Entry) : Json :=
  Json.nat es.length

/-- The part that all reports begin with. -/
def header (type : String) (now : DateTime) (project : Json) (score threshold : Nat) : Fields :=
  [("report_type", .str type),
   ("version", .str "1.0"),
   ("generated_at", .str now.iso),
   ("project_name", project),
   ("compliance_score", Json.nat score),
   ("status", status score threshold)]

/-- Advice that is given if something was found. -/
def advice (es : List Entry) (texts : List String) : List String :=
  if es.isEmpty then [] else texts

/-! ## SOC2 -/

/-- A critical finding costs ten points and a high one five, whatever the topic. -/
def soc2Score (es : List Entry) : Nat :=
  score (es.countP (·.isRated "CRITICAL") * 10 + es.countP (·.isRated "HIGH") * 5)

/-- A principle: its verdict with the number of findings and the first ten. -/
def principle (es : List Entry) : Json :=
  .obj [("status", verdict es), ("findings_count", count es), ("findings", topTen es)]

/-- The report on the principles of security, confidentiality and privacy. -/
def soc2 (now : DateTime) (project : Json) (es : List Entry) : Json :=
  let security := touching ["injection", "xss", "csrf", "auth", "crypto"] es
  let confidentiality := touching ["secret", "password", "key", "token", "credential"] es
  let privacy := touching ["pii", "personal", "gdpr", "privacy"] es
  .obj (header "SOC2" now project (soc2Score es) 80 ++ [
    ("summary", .obj [
      ("total_findings", count es),
      ("critical_findings", Json.nat (es.countP (·.isRated "CRITICAL"))),
      ("high_findings", Json.nat (es.countP (·.isRated "HIGH"))),
      ("security_findings", count security),
      ("confidentiality_findings", count confidentiality),
      ("privacy_findings", count privacy)]),
    ("principles", .obj [
      ("security", principle security),
      ("confidentiality", principle confidentiality),
      ("privacy", principle privacy)]),
    ("recommendations", Json.strings (
      advice security
        ["Implement secure coding practices to address security vulnerabilities"] ++
      advice confidentiality
        ["Implement secrets management and encryption for sensitive data"] ++
      advice privacy ["Implement privacy controls and data protection measures"]))])

/-! ## GDPR -/

/-- What shows that a finding is about personal data. -/
def gdprKeywords : List String := ["pii", "personal", "email", "phone", "address"]

/-- A critical or high finding about personal data costs fifteen points; no other finding counts. -/
def gdprScore (es : List Entry) : Nat :=
  score ((touching gdprKeywords es).countP
    (fun e => e.isRated "CRITICAL" || e.isRated "HIGH") * 15)

/-- A requirement: its verdict and the first ten findings. -/
def requirement (es : List Entry) : Json :=
  .obj [("status", verdict es), ("findings", topTen es)]

/-- The report on data protection, encryption and access control. -/
def gdpr (now : DateTime) (project : Json) (es : List Entry) : Json :=
  let personal := touching gdprKeywords es
  let encryption := touching ["encrypt", "crypto", "hash"] es
  let access := touching ["auth", "access", "permission", "rbac"] es
  .obj (header "GDPR" now project (gdprScore es) 85 ++ [
    ("summary", .obj [
      ("pii_findings", count personal),
      ("encryption_findings", count encryption),
      ("access_control_findings", count access)]),
    ("requirements", .obj [
      ("data_protection", requirement personal),
      ("encryption", requirement encryption),
      ("access_control", requirement access)]),
    ("recommendations", Json.strings (advice personal [
      "Implement data minimization principles",
      "Add encryption for personal data at rest and in transit",
      "Implement access controls for PII",
      "Add audit logging for PII access",
      "Implement data retention policies"]))])

/-! ## HIPAA -/

/-- What shows that a finding is about health data. -/
def hipaaKeywords : List String := ["phi", "health", "medical", "patient"]

/-- A finding about health data costs twenty points, whatever its severity. -/
def hipaaScore (es : List Entry) : Nat :=
  score ((touching hipaaKeywords es).length * 20)

/-- The report on the safeguards for health data. -/
def hipaa (now : DateTime) (project : Json) (es : List Entry) : Json :=
  let health := touching hipaaKeywords es
  let encryption := touching ["encrypt", "crypto", "tls", "ssl"] es
  let audit := touching ["log", "audit", "track"] es
  let access := es.filter (fun e => Text.contains e.rule "auth")
  .obj (header "HIPAA" now project (hipaaScore es) 90 ++ [
    ("summary", .obj [
      ("phi_findings", count health),
      ("encryption_findings", count encryption),
      ("audit_findings", count audit)]),
    ("safeguards", .obj [
      ("technical", .obj [("encryption", verdict encryption), ("access_control", verdict access)]),
      ("administrative", .obj [("audit_controls", verdict audit)])]),
    ("recommendations", Json.strings (advice health [
      "Implement encryption for PHI at rest and in transit",
      "Add role-based access controls (RBAC) for PHI",
      "Implement comprehensive audit logging",
      "Add automatic session timeout",
      "Implement data backup and disaster recovery"]))])

/-! ## The standards -/

/-- The standards. -/
inductive Standard where
  | soc2
  | gdpr
  | hipaa

/-- The standard with a given name, in any letter case. -/
def Standard.ofName (n : String) : Except Failure Standard :=
  match Text.upper n with
  | "SOC2" => .ok .soc2
  | "GDPR" => .ok .gdpr
  | "HIPAA" => .ok .hipaa
  | _ => .error (.badValue s!"Unknown report type: {n}")

/-- The report of a standard on some entries. -/
def Standard.report (s : Standard) (now : DateTime) (project : Json) (es : List Entry) : Json :=
  match s with
  | .soc2 => Compliance.soc2 now project es
  | .gdpr => Compliance.gdpr now project es
  | .hipaa => Compliance.hipaa now project es

/-- The report on some findings. -/
def report (type : String) (now : DateTime) (project findings : Json) : Except Failure Json := do
  let standard ← Standard.ofName type
  return standard.report now project (← (← findings.items).mapM Entry.read)

/-! ## Writing reports to files -/

/-- Write a report to a file. A file that cannot be written is not written. -/
def exportTo (report : Json) (path : String) : Run Unit := do
  match (← Run.files).writeText path report.pretty with
  | .ok fs => Run.setFiles fs
  | .error _ => return

end SecureReview.Compliance
