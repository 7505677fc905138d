import SecureReview.Pattern.Basic
/-!
# Secrets

The kinds of secrets that must not leave the program, each with the pattern that recognises it. They
are looked for in this order.
-/

namespace SecureReview

open Pattern CharSet

/-- A kind of secret. -/
structure SecretKind where
  name : String
  pattern : Pattern

namespace SecretKind

/-- An underscore, a hyphen or nothing. -/
def joint : Pattern := .repeated (ofString "_-") 0 (some 1)

/-- An equals sign or a colon, with blanks around it, and an opening quote. -/
def assignment : Pattern :=
  all [many blank, .set (ofString "=:"), many blank, .set (ofString "\"'")]

/-- A closing quote. -/
def closing : Pattern := .set (ofString "\"'")

/-- A name, an assignment, and a quoted value. -/
def assigned (name value : Pattern) : Pattern :=
  all [name, assignment, value, closing]

/-- A value of at least twenty characters, assigned to an API key. -/
def apiKey : SecretKind where
  name := "API_KEY"
  pattern := assigned
    (any [all [textAnyCase "api", joint, textAnyCase "key"], textAnyCase "apikey"])
    (atLeast 20 (alnumAnyCase.adding "_-"))

/-- A value of at least twenty characters, assigned to a secret key. -/
def secretKey : SecretKind where
  name := "SECRET_KEY"
  pattern := assigned
    (any [all [textAnyCase "secret", joint, textAnyCase "key"], textAnyCase "secretkey"])
    (atLeast 20 (alnumAnyCase.adding "_-"))

/-- The identifier of an AWS access key: its mark and sixteen capitals or digits. -/
def awsAccessKey : SecretKind where
  name := "AWS_ACCESS_KEY"
  pattern := all [text "AKIA", exactly 16 digitOrCapital]

/-- A value of forty characters, assigned to an AWS secret access key. -/
def awsSecretKey : SecretKind where
  name := "AWS_SECRET_KEY"
  pattern := assigned
    (all [textAnyCase "aws", joint, textAnyCase "secret", joint, textAnyCase "access", joint,
      textAnyCase "key"])
    (exactly 40 (alnumAnyCase.adding "/+="))

/-- A personal access token: its mark and thirty-six letters or digits. -/
def githubToken : SecretKind where
  name := "GITHUB_TOKEN"
  pattern := all [text "ghp_", exactly 36 alnum]

/-- An OAuth token: its mark and thirty-six letters or digits. -/
def githubOauthToken : SecretKind where
  name := "GITHUB_OAUTH_TOKEN"
  pattern := all [text "gho_", exactly 36 alnum]

/-- The line that a private key begins with. -/
def privateKey : SecretKind where
  name := "PRIVATE_KEY"
  pattern := all [text "-----BEGIN ", optional (any [text "RSA ", text "DSA ", text "EC "]),
    text "PRIVATE KEY-----"]

/-- A value of at least twenty characters, assigned to a token or a bearer. -/
def authToken : SecretKind where
  name := "AUTH_TOKEN"
  pattern := assigned (any [textAnyCase "bearer", textAnyCase "token"])
    (atLeast 20 (alnumAnyCase.adding "_-."))

/-- The address of a database with a user and a password in it. -/
def databaseUrl : SecretKind where
  name := "DATABASE_URL"
  pattern := all [any [textAnyCase "postgres", textAnyCase "mysql", textAnyCase "mongodb"],
    text "://", some₁ (allBut ':'), char ':', some₁ (allBut '@'), char '@', some₁ (allBut '/')]

/-- A signed token: three parts with points between them, the first two encoded objects. -/
def jwtToken : SecretKind where
  name := "JWT_TOKEN"
  pattern := all [text "eyJ", many (alnum.adding "_-"), text ".eyJ", many (alnum.adding "_-"),
    char '.', many (alnum.adding "_-")]

/-- All kinds of secrets, in the order in which they are redacted. -/
def known : List SecretKind :=
  [apiKey, secretKey, awsAccessKey, awsSecretKey, githubToken, githubOauthToken, privateKey,
    authToken, databaseUrl, jwtToken]

/-- What stands in the place of a secret. -/
def placeholder (k : SecretKind) : String :=
  s!"<{k.name}_REDACTED>"

end SecretKind

end SecureReview
