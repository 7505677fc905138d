import SecureReview.Diff.Blocks
import SecureReview.Number.Whole
import SecureReview.Text.Numeral
import SecureReview.Text.Quoted
import SecureReview.Text.Search
/-!
# Options of commands

A command declares its options; its arguments are split into options with their values and other
words, and the values are then checked. All arguments are split before any value is looked at, so a
malformed option is reported before an unacceptable value.
-/

namespace SecureReview.CommandLine

/-- What an option takes. -/
inductive Takes where
  /-- Nothing: it is given or not. -/
  | nothing
  | text
  | whole
  | oneOf (choices : List String)

/-- A declared option: its long name, and a letter for which it also stands. -/
structure OptionSpec where
  long : String
  short : Option Char := none
  takes : Takes := .nothing
  required : Bool := false

/-- What is wrong with the arguments of a command. -/
inductive UsageFault where
  | missingCommand
  | noCommand (name : String)
  | noOption (name : String) (near : List String)
  | noValue (name : String)
  | needlessValue (name : String)
  | notAChoice (names value : String) (choices : List String)
  | notWhole (names value : String)
  | missingOption (names : String)
  | extra (words : List String)

/-- A hint at options that look like the one that was given. -/
def hint : List String → String
  | [] => ""
  | [name] => s!" Did you mean {name}?"
  | names =>
    let sorted := names.mergeSort (fun a b => !(b < a))
    " (Possible options: " ++ Text.joinWith ", " sorted ++ ")"

/-- The wording of a fault. -/
def UsageFault.message : UsageFault → String
  | .missingCommand => "Missing command."
  | .noCommand name => s!"No such command {Text.quote name}."
  | .noOption name near => s!"No such option: {name}" ++ hint near
  | .noValue name => s!"Option {Text.quote name} requires an argument."
  | .needlessValue name => s!"Option {Text.quote name} does not take a value."
  | .notAChoice names value choices =>
    s!"Invalid value for {names}: {Text.quote value} is not one of " ++
      Text.joinWith ", " (choices.map Text.quote) ++ "."
  | .notWhole names value => s!"Invalid value for {names}: {Text.quote value} is not a valid integer."
  | .missingOption names => s!"Missing option {names}."
  | .extra words =>
    let noun := if words.length == 1 then "argument" else "arguments"
    s!"Got unexpected extra {noun} (" ++ Text.joinWith " " words ++ ")"

namespace OptionSpec

/-- The short form of an option. -/
def shortName (o : OptionSpec) : Option String :=
  o.short.map (fun c => String.ofList ['-', c])

/-- The names of an option in a message. -/
def names (o : OptionSpec) : String :=
  Text.joinWith " / " ((o.long :: o.shortName.toList).map Text.quote)

/-- The option is followed by a value. -/
def takesValue (o : OptionSpec) : Bool :=
  match o.takes with
  | .nothing => false
  | _ => true

/-- Check a value. -/
def check (o : OptionSpec) (value : String) : Except UsageFault Unit :=
  match o.takes with
  | .nothing | .text => .ok ()
  | .whole =>
    match Text.readInt value with
    | .ok _ => .ok ()
    | .error _ => .error (.notWhole o.names value)
  | .oneOf choices =>
    if choices.contains value then .ok () else .error (.notAChoice o.names value choices)

end OptionSpec

/-! ## Similar names -/

/-- Two sequences of lengths `a` and `b` with `m` common elements are at least three fifths alike. -/
def isClose (m a b : Nat) : Bool :=
  3 * (a + b) ≤ 10 * m

/-- The number of elements in common stretches. -/
def matched (a b : String) : Nat :=
  Number.total ((Diff.blocks a.toList b.toList).map Diff.Block.size)

/-- The pairs of a name and its likeness, as a share of the two lengths, with the most alike first and
later names before earlier ones. -/
def byLikeness (xs : List (String × Nat × Nat)) : List (String × Nat × Nat) :=
  xs.mergeSort (fun x y =>
    let left := x.2.1 * y.2.2
    let right := y.2.1 * x.2.2
    right < left || (right == left && !(x.1 < y.1)))

/-- The names that look like a given one, at most three of them. -/
def closeNames (name : String) (known : List String) : List String :=
  let scored := known.map (fun k => (k, matched k name, k.length + name.length))
  let close := scored.filter (fun s => isClose s.2.1 s.1.length name.length)
  ((byLikeness close).take 3).map Prod.fst

/-! ## Splitting -/

/-- An option that was given, with its value; the value of an option that takes none is empty. -/
structure Given where
  long : String
  value : String

/-- What a word of the arguments is. -/
inductive Word where
  | plain
  | complete (g : Given)
  /-- The option takes the next word as its value; it was given under `name`. -/
  | awaiting (long name : String)
  | wrong (fault : UsageFault)

/-- Divide a word at its first equality sign. -/
def splitValue (word : String) : String × Option String :=
  let t := word.toList
  match t.dropWhile (· != '=') with
  | [] => (word, none)
  | _ :: value => (String.ofList (t.takeWhile (· != '=')), some (String.ofList value))

/-- Read a word as a letter and what stands directly after it. All letters take values. -/
def readShort (options : List OptionSpec) (word : String) : Word :=
  match word.toList with
  | mark :: c :: rest =>
    let name := String.ofList [mark, c]
    match options.find? (fun o => o.shortName == some name) with
    | none => .wrong (.noOption name [])
    | some o =>
      if rest.isEmpty then .awaiting o.long name else .complete ⟨o.long, String.ofList rest⟩
  | _ => .plain

/-- Read a word as an option. -/
def readWord (options : List OptionSpec) (word : String) : Word :=
  if word.length < 2 || !Text.startsWith word "-" then .plain
  else
    let (name, value?) := splitValue word
    match options.find? (fun o => o.long == name) with
    | some o =>
      match o.takesValue, value? with
      | true, some value => .complete ⟨o.long, value⟩
      | true, none => .awaiting o.long name
      | false, some _ => .wrong (.needlessValue name)
      | false, none => .complete ⟨o.long, ""⟩
    | none =>
      if Text.startsWith word "--" then
        .wrong (.noOption name (closeNames name (options.map OptionSpec.long)))
      else readShort options word

/-- Put an option in front of what was read after it. -/
def Given.before (g : Given) (r : Except UsageFault (List Given × List String)) :
    Except UsageFault (List Given × List String) :=
  r.map (fun p => (g :: p.1, p.2))

/-- Split arguments into options and other words. Two dashes end the options, and so does the first
other word unless the two may be mixed. -/
def split (options : List OptionSpec) (mixed : Bool) :
    List String → Except UsageFault (List Given × List String)
  | [] => .ok ([], [])
  | word :: rest =>
    if word == "--" then .ok ([], rest)
    else
      match readWord options word with
      | .plain =>
        if mixed then (split options mixed rest).map (fun p => (p.1, word :: p.2))
        else .ok ([], word :: rest)
      | .complete g => g.before (split options mixed rest)
      | .awaiting long name =>
        match rest with
        | [] => .error (.noValue name)
        | value :: rest => (Given.mk long value).before (split options mixed rest)
      | .wrong fault => .error fault

/-! ## Values -/

/-- The values given for an option, in order. -/
def valuesOf (given : List Given) (long : String) : List String :=
  (given.filter (·.long == long)).map Given.value

/-- The value of an option: the one given last. -/
def valueOf? (given : List Given) (long : String) : Option String :=
  (valuesOf given long).getLast?

/-- The option is given. -/
def isGiven (given : List Given) (long : String) : Bool :=
  given.any (·.long == long)

/-- The options in the order in which their values are checked: as first given, then as declared. -/
def checkOrder (options : List OptionSpec) (given : List Given) : List OptionSpec :=
  let first := (given.map Given.long).eraseDups
  first.filterMap (fun l => options.find? (fun o => o.long == l)) ++
    options.filter (fun o => !first.contains o.long)

/-- Check the value of an option, or that it may be left out. -/
def checkOption (given : List Given) (o : OptionSpec) : Except UsageFault Unit :=
  match valueOf? given o.long with
  | some value => o.check value
  | none => if o.required then .error (.missingOption o.names) else .ok ()

/-- Check all values, and that no other words are left. -/
def checkAll (options : List OptionSpec) (given : List Given) (words : List String) :
    Except UsageFault Unit := do
  (checkOrder options given).forM (checkOption given)
  if words.isEmpty then return else throw (.extra words)

end SecureReview.CommandLine
