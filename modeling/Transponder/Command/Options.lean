import Transponder.Text.Ascii

/-!
# Options on a command line

The rules by which words become options, for any set of them. An option has a long name and may have
a letter. It either is a flag, or has a value: behind an equals sign, behind its letter, or in the
next word. A word alone is the input, which comes once. After two hyphens every word counts as one.

A value that stands in a word of its own, and the input, are looked at only when the next known
option, the input or the end comes. So an unknown word is reported before a bad value in front of
it, and a missing value before whatever follows.
-/

namespace Transponder.Command

/-- Why a command line is refused, or answered with a text about the program. -/
inductive UsageError where
  | invalidValue
  | valueValidation
  | unknownArgument
  | invalidSubcommand
  | missingSubcommand
  | help
  | version
  | argumentConflict
  | tooManyValues
deriving DecidableEq

def UsageError.message : UsageError → String
  | invalidValue => "a value is missing or not among the choices"
  | valueValidation => "a value does not make sense"
  | unknownArgument => "unexpected argument"
  | invalidSubcommand => "unrecognized command"
  | missingSubcommand => "missing command"
  | help => "help"
  | version => "version"
  | argumentConflict => "an option is given twice"
  | tooManyValues => "unexpected value"

/-- What an option does to the options so far. -/
inductive Effect (α : Type) where
  | flag (set : α → α)
  | value (set : String → α → Except UsageError α)
  | stop (error : UsageError)

/-- An option. -/
structure OptionSpec (α : Type) where
  long : String
  short : Option Char
  effect : Effect α

/-- What a command takes. -/
structure Grammar (α : Type) where
  options : List (OptionSpec α)
  input : String → α → Except UsageError α

/-- An option that waits for its value, or a value that has not been looked at. -/
inductive Pending (α : Type) where
  | nothing
  | option (spec : OptionSpec α) (value : Option String)
  | input (value : String)

/-- The options so far. -/
structure Progress (α : Type) where
  result : α
  /-- The long names of the options that have been given. -/
  given : List String := []
  pending : Pending α := .nothing
  /-- Whether the input has been given. -/
  hasInput : Bool := false

variable {α : Type}

namespace Progress

/-- Records that an option has been given, which may happen once. -/
def give (p : Progress α) (spec : OptionSpec α) : Except UsageError (Progress α) :=
  if spec.long ∈ p.given then .error .argumentConflict
  else .ok { p with given := spec.long :: p.given }

/-- Looks at what is pending. -/
def resolve (g : Grammar α) (p : Progress α) : Except UsageError (Progress α) :=
  let done := { p with pending := .nothing }
  match p.pending with
  | .nothing => .ok done
  | .option _ none => .error .invalidValue
  | .option spec (some v) => do
    let p ← done.give spec
    match spec.effect with
    | .value set => return { p with result := ← set v p.result }
    | _ => return p
  | .input v => do return { done with result := ← g.input v done.result }

/-- Takes an option without a value in the same word. -/
def takeOption (g : Grammar α) (p : Progress α) (spec : OptionSpec α) :
    Except UsageError (Progress α) := do
  let p ← p.resolve g
  match spec.effect with
  | .flag set =>
    let p ← p.give spec
    return { p with result := set p.result }
  | .value _ => return { p with pending := .option spec none }
  | .stop error => .error error

/-- Takes an option with the value in the same word. -/
def takeAttached (g : Grammar α) (p : Progress α) (spec : OptionSpec α) (v : String) :
    Except UsageError (Progress α) :=
  match spec.effect with
  | .value _ => do
    let p ← p.resolve g
    { p with pending := .option spec (some v) }.resolve g
  | _ => .error .tooManyValues

/-- Takes a word that starts with two hyphens. -/
def takeLong (g : Grammar α) (p : Progress α) (word : List Char) :
    Except UsageError (Progress α) :=
  let (name, value) := match Text.breakAt? '=' word with
    | some (name, value) => (name, some value)
    | none => (word, none)
  match g.options.find? fun o => o.long.toList == name with
  | none => .error .unknownArgument
  | some spec =>
    match value with
    | some v => p.takeAttached g spec (String.ofList v)
    | none => p.takeOption g spec

/-- Takes the letters behind one hyphen. -/
def takeShort (g : Grammar α) : Progress α → List Char → Except UsageError (Progress α)
  | p, [] => .ok p
  | p, c :: rest =>
    match g.options.find? fun o => o.short == some c with
    | none => .error .unknownArgument
    | some spec =>
      match spec.effect, rest with
      | .value _, '=' :: v => p.takeAttached g spec (String.ofList v)
      | .value _, v :: vs => p.takeAttached g spec (String.ofList (v :: vs))
      | _, rest => do takeShort g (← p.takeOption g spec) rest

/-- Takes a word that is no option. -/
def takeWord (g : Grammar α) (p : Progress α) (word : String) : Except UsageError (Progress α) :=
  if p.hasInput then .error .unknownArgument
  else do
    let p ← p.resolve g
    return { p with pending := .input word, hasInput := true }

/-- Takes words of which none is an option any more. -/
def takeWords (g : Grammar α) : Progress α → List String → Except UsageError (Progress α)
  | p, [] => p.resolve g
  | p, word :: words => do takeWords g (← p.takeWord g word) words

/-- Takes all words. -/
def takeAll (g : Grammar α) : Progress α → List String → Except UsageError (Progress α)
  | p, [] => p.resolve g
  | p, word :: words => do
    match word.toList with
    | ['-', '-'] => takeWords g p words
    | '-' :: '-' :: cs => takeAll g (← p.takeLong g cs) words
    | '-' :: c :: cs => takeAll g (← p.takeShort g (c :: cs)) words
    | _ =>
      match p.pending with
      | .option spec none => takeAll g { p with pending := .option spec (some word) } words
      | _ => takeAll g (← p.takeWord g word) words

end Progress

/-- The options that some words give. -/
def Grammar.parse (g : Grammar α) (default : α) (words : List String) : Except UsageError α := do
  let p : Progress α ← Progress.takeAll g { result := default } words
  return p.result

end Transponder.Command
