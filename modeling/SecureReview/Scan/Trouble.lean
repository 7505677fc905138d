import SecureReview.Json.Loose
import SecureReview.World.Basic
import SecureReview.Xml.Parser
/-!
# Troubles as findings

Some scanners report their own troubles as findings, so that they are not overlooked.
-/

namespace SecureReview.Scan

/-- A finding about a scan that did not work. -/
def trouble (file rule description tool : String) : Json :=
  .obj [
    ("file", .str file),
    ("line", .int 1),
    ("severity", .str "ERROR"),
    ("rule_id", .str rule),
    ("description", .str description),
    ("tool", .str tool)]

/-- Read a report in XML. A malformed report is itself a finding of the tool. -/
def readXml (text title tool : String) (findings : Xml.Element → Except Failure (List Json)) :
    Except Failure (List Json) :=
  match Xml.parse text with
  | .ok root => findings root
  | .error (.unknownEncoding n) => .error (.unknownEncoding n)
  | .error (.malformed t) =>
    .ok [trouble "unknown" "PARSE_ERROR" s!"Failed to parse {title} output: {t}" tool]

/-- Read a report that a tool may have left in a file, and remove it once it has been read. -/
def takeReport (path : String) (read : String → Except Failure (List Json)) : Run (List Json) := do
  let fs ← Run.files
  if !fs.has path then return []
  let text ← Run.ofExcept (fs.readExact path)
  let findings ← Run.ofExcept (read text)
  Run.setFiles (← Run.ofExcept (fs.unlink path))
  return findings

/-- A whole number in an attribute. -/
def numberIn (e : Xml.Element) (k : String) : Except Failure Int :=
  (Json.str ((e.get? k).getD "1")).toInt

end SecureReview.Scan
