import Transponder.Command.Options
import Transponder.Settings.Basic

/-!
# The command line

There are two commands: `decode` turns sentences into reports, `encode` turns records into
sentences. Their options override the settings.
-/

namespace Transponder.Command

/-- The form of reports. -/
inductive ReportFormat where
  | json
  | csv
deriving DecidableEq

/-- The options of `decode`. -/
structure DecodeOptions where
  input : Option String := none
  format : ReportFormat := .json
  noChecksum : Bool := false
  noReassembly : Bool := false
  maxAge : Option Nat := none
deriving DecidableEq

/-- The options of `encode`. -/
structure EncodeOptions where
  input : Option String := none
  channel : Option Char := none
  talker : Option String := none
  sequenceId : Option UInt8 := none
  maxFragmentLength : Option Nat := none
  noFragmentation : Bool := false
  ownVessel : Bool := false
deriving DecidableEq

/-- What the program is asked to do. -/
inductive Request where
  | decode (options : DecodeOptions)
  | encode (options : EncodeOptions)
deriving DecidableEq

/-- A value that must satisfy a rule. -/
def validated {α : Type} (value : Option α) : Except UsageError α :=
  match value with
  | some a => .ok a
  | none => .error .valueValidation

/-- The name of an input, which is not empty. -/
def inputName (s : String) : Except UsageError String :=
  if s.isEmpty then .error .invalidValue else .ok s

/-- An integer between two limits. -/
def integerBetween? (low high : Nat) (s : String) : Option Nat :=
  match Text.integer? 64 s.toList with
  | some i => if (low : Int) ≤ i ∧ i ≤ high then some i.toNat else none
  | none => none

def singleChar? (s : String) : Option Char :=
  match s.toList with
  | [c] => some c
  | _ => none

def reportFormat (s : String) : Except UsageError ReportFormat :=
  if s = "json" then .ok .json
  else if s = "csv" then .ok .csv
  else .error .invalidValue

/-- The option that asks for help. -/
def helpOption (α : Type) : OptionSpec α :=
  ⟨"help", some 'h', .stop .help⟩

def decodeGrammar : Grammar DecodeOptions where
  options := [
    ⟨"format", some 'f', .value fun v o => do return { o with format := ← reportFormat v }⟩,
    ⟨"no-checksum", none, .flag fun o => { o with noChecksum := true }⟩,
    ⟨"no-reassembly", none, .flag fun o => { o with noReassembly := true }⟩,
    ⟨"max-age", none, .value fun v o => do
      return { o with maxAge := ← validated (Text.natural? 10 (UInt64.size - 1) v.toList) }⟩,
    helpOption DecodeOptions]
  input v o := do return { o with input := ← inputName v }

def encodeGrammar : Grammar EncodeOptions where
  options := [
    ⟨"channel", some 'c', .value fun v o => do
      return { o with channel := ← validated (singleChar? v) }⟩,
    ⟨"talker", some 't', .value fun v o => .ok { o with talker := some v }⟩,
    ⟨"sequence-id", none, .value fun v o => do
      let id ← validated (integerBetween? 0 maxSequenceId v)
      return { o with sequenceId := UInt8.ofNat id }⟩,
    ⟨"max-fragment-chars", none, .value fun v o => do
      return { o with maxFragmentLength := ← validated (integerBetween? 1 65535 v) }⟩,
    ⟨"no-fragmentation", none, .flag fun o => { o with noFragmentation := true }⟩,
    ⟨"own-vessel", none, .flag fun o => { o with ownVessel := true }⟩,
    helpOption EncodeOptions]
  input v o := do return { o with input := ← inputName v }

/-- The names of the commands. -/
def names : List String :=
  ["decode", "encode", "help"]

/-- What is said about the commands that are named. -/
def helpOn : List String → UsageError
  | [] => .help
  | [name] => if name ∈ names then .help else .invalidSubcommand
  | _ => .invalidSubcommand

/-- The words in front of a command: only the options that say something about the program. -/
def leadingOption (word : List Char) : UsageError :=
  let g : Grammar Unit := {
    options := [helpOption Unit, ⟨"version", some 'V', .stop .version⟩]
    input := fun _ _ => .ok () }
  let p : Progress Unit := { result := () }
  let taken := match word with
    | '-' :: cs => p.takeLong g cs
    | cs => p.takeShort g cs
  match taken with
  | .error e => e
  | .ok _ => .missingSubcommand

/-- What a list of words asks for. -/
def parse : List String → Except UsageError Request
  | [] => .error .missingSubcommand
  | word :: words =>
    match word.toList with
    | ['-', '-'] =>
      match words with
      | [] => .error .missingSubcommand
      | next :: _ => .error (if next ∈ names then .unknownArgument else .invalidSubcommand)
    | '-' :: c :: cs => .error (leadingOption (c :: cs))
    | _ =>
      if word = "decode" then (decodeGrammar.parse {} words).map .decode
      else if word = "encode" then (encodeGrammar.parse {} words).map .encode
      else if word = "help" then .error (helpOn words)
      else .error .invalidSubcommand

/-- The settings as the options change them. -/
def DecodeOptions.settings (o : DecodeOptions) (s : ReceiverSettings) : ReceiverSettings where
  validateChecksum := s.validateChecksum && !o.noChecksum
  enableReassembly := s.enableReassembly && !o.noReassembly
  maxReassemblyAge := o.maxAge.getD s.maxReassemblyAge

/-- The settings as the options change them. -/
def EncodeOptions.settings (o : EncodeOptions) (s : TransmitterSettings) : TransmitterSettings where
  enableFragmentation := s.enableFragmentation && !o.noFragmentation
  maxFragmentLength := o.maxFragmentLength.getD s.maxFragmentLength
  channel := o.channel.getD s.channel
  sequenceId := o.sequenceId.or s.sequenceId
  talker := (o.talker.map Text.upper).getD s.talker
  ownVessel := s.ownVessel || o.ownVessel

/-- Whether the name of an input means the standard input: it is a hyphen, with nothing behind it but
empty steps and steps that stay in place. -/
def isStandardInput (name : String) : Bool :=
  match Text.splitAt '/' name.toList with
  | first :: steps => first == ['-'] && steps.all fun step => step.isEmpty || step == ['.']
  | [] => false

/-- The file that is read, unless it is the standard input. -/
def Request.source (request : Request) : Option String :=
  let input := match request with
    | decode o => o.input
    | encode o => o.input
  input.filter fun name => !isStandardInput name

end Transponder.Command
