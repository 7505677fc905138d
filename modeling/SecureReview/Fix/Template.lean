import SecureReview.Json.Basic
import SecureReview.Text.Lines
/-!
# Fix templates

Worked examples of how to repair a kind of vulnerability, by the rules that report it and the
languages it applies to.
-/

namespace SecureReview

/-- How a kind of vulnerability is repaired. -/
structure FixTemplate where
  vulnerability : String
  ruleIds : List String
  languages : List String
  template : String
  imports : List String
  explanation : String

namespace FixTemplate

/-- The template as a value. -/
def toJson (t : FixTemplate) : Json :=
  .obj [("vulnerability_type", .str t.vulnerability), ("rule_ids", Json.strings t.ruleIds),
    ("languages", Json.strings t.languages), ("template", .str t.template),
    ("imports_needed", Json.strings t.imports), ("explanation", .str t.explanation)]

/-- Templates for Python. -/
def python : List FixTemplate := [
  { vulnerability := "weak_crypto_md5"
    ruleIds := ["B303", "B324"]
    languages := ["python"]
    template := Text.unlines [
      "",
      "# Replace MD5 with bcrypt for password hashing",
      "import bcrypt",
      "",
      "# Old (insecure):",
      "# password_hash = hashlib.md5(password.encode()).hexdigest()",
      "",
      "# New (secure):",
      "password_hash = bcrypt.hashpw(password.encode(), bcrypt.gensalt())",
      ""]
    imports := ["bcrypt"]
    explanation := "MD5 is cryptographically broken. Use bcrypt for password hashing." },
  { vulnerability := "weak_crypto_sha1"
    ruleIds := ["B303", "B324"]
    languages := ["python"]
    template := Text.unlines [
      "",
      "# Replace SHA1 with SHA256 for secure hashing",
      "import hashlib",
      "",
      "# Old (insecure):",
      "# hash_value = hashlib.sha1(data).hexdigest()",
      "",
      "# New (secure):",
      "hash_value = hashlib.sha256(data).hexdigest()",
      ""]
    imports := ["hashlib"]
    explanation := "SHA1 is deprecated. Use SHA256 or higher for secure hashing." },
  { vulnerability := "sql_injection"
    ruleIds := ["B608", "B609"]
    languages := ["python"]
    template := Text.unlines [
      "",
      "# Use parameterized queries to prevent SQL injection",
      "# Old (vulnerable):",
      "# cursor.execute(f\"SELECT * FROM users WHERE id = \x7buser_id\x7d\")",
      "",
      "# New (secure):",
      "cursor.execute(\"SELECT * FROM users WHERE id = ?\", (user_id,))",
      ""]
    imports := []
    explanation := "Parameterized queries prevent SQL injection by separating SQL code from data." },
  { vulnerability := "command_injection"
    ruleIds := ["B602", "B603", "B605", "B607"]
    languages := ["python"]
    template := Text.unlines [
      "",
      "# Use subprocess with list arguments instead of shell=True",
      "import subprocess",
      "",
      "# Old (vulnerable):",
      "# subprocess.call(f\"ls \x7buser_input\x7d\", shell=True)",
      "",
      "# New (secure):",
      "subprocess.run([\"ls\", user_input], shell=False, check=True)",
      ""]
    imports := ["subprocess"]
    explanation := "Using shell=False and list arguments prevents command injection." },
  { vulnerability := "hardcoded_password"
    ruleIds := ["B105", "B106"]
    languages := ["python"]
    template := Text.unlines [
      "",
      "# Use environment variables for sensitive data",
      "import os",
      "",
      "# Old (insecure):",
      "# password = \"hardcoded_password123\"",
      "",
      "# New (secure):",
      "password = os.environ.get(\"DB_PASSWORD\")",
      "if not password:",
      "    raise ValueError(\"DB_PASSWORD environment variable not set\")",
      ""]
    imports := ["os"]
    explanation := "Store secrets in environment variables, never hardcode them." },
  { vulnerability := "path_traversal"
    ruleIds := ["B608"]
    languages := ["python"]
    template := Text.unlines [
      "",
      "# Validate and sanitize file paths",
      "import os",
      "from pathlib import Path",
      "",
      "# Old (vulnerable):",
      "# file_path = f\"/uploads/\x7buser_filename\x7d\"",
      "",
      "# New (secure):",
      "base_dir = Path(\"/uploads\").resolve()",
      "file_path = (base_dir / user_filename).resolve()",
      "if not file_path.is_relative_to(base_dir):",
      "    raise ValueError(\"Invalid file path\")",
      ""]
    imports := ["os", "pathlib.Path"]
    explanation := "Validate paths to prevent directory traversal attacks." },
  { vulnerability := "insecure_deserialization"
    ruleIds := ["B301", "B302", "B303"]
    languages := ["python"]
    template := Text.unlines [
      "",
      "# Use json instead of pickle for untrusted data",
      "import json",
      "",
      "# Old (vulnerable):",
      "# import pickle",
      "# data = pickle.loads(untrusted_input)",
      "",
      "# New (secure):",
      "data = json.loads(untrusted_input)",
      ""]
    imports := ["json"]
    explanation := "pickle can execute arbitrary code. Use json for untrusted data." }]

/-- Templates for JavaScript and TypeScript. -/
def javascript : List FixTemplate := [
  { vulnerability := "xss"
    ruleIds := ["no-danger", "react/no-danger"]
    languages := ["javascript", "typescript"]
    template := Text.unlines [
      "",
      "// Use safe React rendering instead of dangerouslySetInnerHTML",
      "// Old (vulnerable):",
      "// <div dangerouslySetInnerHTML=\x7b\x7b__html: userInput\x7d\x7d />",
      "",
      "// New (secure):",
      "<div>\x7buserInput\x7d</div>",
      "",
      "// Or use DOMPurify for HTML content:",
      "import DOMPurify from 'dompurify';",
      "<div dangerouslySetInnerHTML=\x7b\x7b__html: DOMPurify.sanitize(userInput)\x7d\x7d />",
      ""]
    imports := ["dompurify"]
    explanation := "React escapes content by default. Use DOMPurify if HTML is needed." },
  { vulnerability := "eval_usage"
    ruleIds := ["no-eval"]
    languages := ["javascript", "typescript"]
    template := Text.unlines [
      "",
      "// Avoid eval() - use safer alternatives",
      "// Old (vulnerable):",
      "// eval(userInput);",
      "",
      "// New (secure - for JSON):",
      "JSON.parse(userInput);",
      "",
      "// Or use Function constructor with validation:",
      "const func = new Function('return ' + sanitizedInput);",
      ""]
    imports := []
    explanation := "eval() can execute arbitrary code. Use JSON.parse or validate input." },
  { vulnerability := "sql_injection_js"
    ruleIds := ["security/detect-sql-injection"]
    languages := ["javascript", "typescript"]
    template := Text.unlines [
      "",
      "// Use parameterized queries",
      "// Old (vulnerable):",
      "// db.query(`SELECT * FROM users WHERE id = $\x7buserId\x7d`);",
      "",
      "// New (secure):",
      "db.query('SELECT * FROM users WHERE id = ?', [userId]);",
      "",
      "// Or with named parameters:",
      "db.query('SELECT * FROM users WHERE id = :id', \x7bid: userId\x7d);",
      ""]
    imports := []
    explanation := "Parameterized queries prevent SQL injection." }]

/-- Templates for Go. -/
def go : List FixTemplate := [
  { vulnerability := "sql_injection_go"
    ruleIds := ["G201", "G202"]
    languages := ["go"]
    template := Text.unlines [
      "",
      "// Use parameterized queries",
      "// Old (vulnerable):",
      "// query := fmt.Sprintf(\"SELECT * FROM users WHERE id = %s\", userID)",
      "// db.Query(query)",
      "",
      "// New (secure):",
      "db.Query(\"SELECT * FROM users WHERE id = $1\", userID)",
      ""]
    imports := []
    explanation := "Use parameterized queries with placeholders." },
  { vulnerability := "weak_crypto_go"
    ruleIds := ["G401", "G501"]
    languages := ["go"]
    template := Text.unlines [
      "",
      "// Use SHA256 instead of MD5/SHA1",
      "import \"crypto/sha256\"",
      "",
      "// Old (insecure):",
      "// h := md5.New()",
      "",
      "// New (secure):",
      "h := sha256.New()",
      ""]
    imports := ["crypto/sha256"]
    explanation := "Use SHA256 or higher for cryptographic hashing." }]

/-- Templates for Rust. -/
def rust : List FixTemplate := [
  { vulnerability := "unsafe_code"
    ruleIds := ["clippy::unsafe_code"]
    languages := ["rust"]
    template := Text.unlines [
      "",
      "// Avoid unsafe code when possible",
      "// Old (potentially unsafe):",
      "// unsafe \x7b",
      "//     *ptr = value;",
      "// \x7d",
      "",
      "// New (safe):",
      "// Use safe Rust abstractions like Vec, Box, Rc, Arc",
      "let mut vec = Vec::new();",
      "vec.push(value);",
      ""]
    imports := []
    explanation := "Prefer safe Rust abstractions over unsafe code." }]

/-- All templates; of several that apply the first counts. -/
def all : List FixTemplate :=
  python ++ javascript ++ go ++ rust

/-- The template for a rule in a language. -/
def forRule? (ruleId language : String) : Option FixTemplate :=
  all.find? (fun t => t.ruleIds.contains ruleId && t.languages.contains language)

/-- The templates for a language. -/
def forLanguage (language : String) : List FixTemplate :=
  all.filter (fun t => t.languages.contains language)

/-- The elements of a list without repetitions. -/
def distinct : List String → List String
  | [] => []
  | x :: xs => x :: (distinct xs).filter (· != x)

/-- The languages that have templates. -/
def supportedLanguages : List String :=
  distinct (all.flatMap (·.languages))

/-- The rules that have templates in a language, in increasing order. -/
def supportedRules (language : String) : List String :=
  (distinct ((forLanguage language).flatMap (·.ruleIds))).mergeSort (fun a b => !decide (b < a))

end FixTemplate

end SecureReview
