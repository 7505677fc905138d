import SecureReview.Number.Num
/-!
# Scripted collaborators

The tools, services and libraries that the program talks to are given by what they will answer: one
script per collaborator, used up in order.
-/

namespace SecureReview

/-- How a command fails to run. -/
inductive ProcessFault where
  | missing
  | timeout
  | other (text : String)

/-- What happens when a command is run: files may be written, then it prints and exits, or fails. -/
structure ProcessScript where
  stdout : String := ""
  stderr : String := ""
  code : Int := 0
  writes : List (String × String) := []
  fault : Option ProcessFault := none

/-- What a command that ran has left. -/
structure Finished where
  stdout : String
  stderr : String
  code : Int

/-- What a language model answers. -/
inductive ModelReply where
  | content (text : Option String) (inputTokens outputTokens : Int)
  | fault (text : String)

/-- A node of a syntax tree. Rows count from zero, `startByte` and `stopByte` count bytes. -/
inductive Node where
  | mk (type : String) (startRow stopRow : Int) (startByte stopByte : Int) (text : String)
      (children : List Node)
  deriving Inhabited

namespace Node

/-- What the node stands for in the grammar. -/
def type : Node → String
  | .mk t .. => t

/-- The row in which the node starts. -/
def startRow : Node → Int
  | .mk _ r .. => r

/-- The row in which the node stops. -/
def stopRow : Node → Int
  | .mk _ _ r .. => r

/-- The byte at which the node starts. -/
def startByte : Node → Int
  | .mk _ _ _ b .. => b

/-- The byte before which the node stops. -/
def stopByte : Node → Int
  | .mk _ _ _ _ b .. => b

/-- The text that the node covers. -/
def text : Node → String
  | .mk _ _ _ _ _ t _ => t

/-- The nodes that the node is made of. -/
def children : Node → List Node
  | .mk _ _ _ _ _ _ cs => cs

end Node

/-- A stretch of text recognised as personal data. -/
structure PersonalSpan where
  entity : String
  start : Json
  stop : Json
  score : Json

/-- What the recogniser of personal data answers. -/
inductive PersonalReply where
  | found (spans : List PersonalSpan) (anonymized : String)
  | fault (text : String)

/-- What an HTTP post leads to. -/
inductive PostOutcome where
  | status (code : Int)
  | fault (text : String)

/-- What a call of the repository host leads to. -/
inductive HostOutcome where
  | ok
  | hostError
  | fault (text : String)

end SecureReview
