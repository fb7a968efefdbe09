import TravelDocument.Tool.FileName

/-!
# The command line

    [-c FILE] list-readers
    [-c FILE] read [-r N] [-n NUMBER] [-b DATE] [-e DATE] [--pace] [--can NUMBER] [-f FILE]...

An option is given as `--long VALUE`, `--long=VALUE`, `-s VALUE`, `-s=VALUE` or `-sVALUE`; a value
of its own must not look like an option. Only `-f` may be repeated. The three fields of the
machine-readable zone are required unless there is a card access number.
-/

namespace TravelDocument.Tool

/-- What to read and how to get access. -/
structure ReadOptions where
  readerIndex : Option Nat := none
  documentNumber : Option String := none
  birthDate : Option String := none
  expiryDate : Option String := none
  pace : Bool := false
  can : Option String := none
  files : List FileIdentifier := []
  deriving DecidableEq, Repr

inductive Mode where
  | listReaders
  | read (options : ReadOptions)
  deriving DecidableEq, Repr

/-- A command line. -/
structure Arguments where
  config : Option String
  mode : Mode
  deriving DecidableEq, Repr

/-! ## Options with a value -/

inductive OptionName where
  | config
  | reader
  | documentNumber
  | birthDate
  | expiryDate
  | can
  | file
  deriving DecidableEq, Repr

namespace OptionName

def long : OptionName → String
  | .config => "config"
  | .reader => "reader"
  | .documentNumber => "document-number"
  | .birthDate => "birth-date"
  | .expiryDate => "expiry-date"
  | .can => "can"
  | .file => "file"

def short? : OptionName → Option Char
  | .config => some 'c'
  | .reader => some 'r'
  | .documentNumber => some 'n'
  | .birthDate => some 'b'
  | .expiryDate => some 'e'
  | .can => none
  | .file => some 'f'

def ofRead : List OptionName :=
  [.reader, .documentNumber, .birthDate, .expiryDate, .can, .file]

end OptionName

/-- An option as an argument has it, and its value if that is in the same argument. -/
structure GivenOption where
  name : OptionName
  attached : Option String
  deriving DecidableEq, Repr

/-- The value behind a short option in the same argument; an equals sign does not belong to it. -/
def attachedValue : List Char → Option String
  | [] => none
  | '=' :: value => some (String.ofList value)
  | value => some (String.ofList value)

/-- The value behind a long option in the same argument. -/
def longValue (name : List Char) (value : List Char) (names : List OptionName) :
    Option GivenOption :=
  (names.find? (·.long.toList == name)).map fun n =>
    ⟨n, match value with | [] => none | _ :: v => some (String.ofList v)⟩

/-- Reads an argument as one of the given options. -/
def givenOption? (names : List OptionName) (argument : String) : Option GivenOption :=
  match argument.toList with
  | '-' :: '-' :: text =>
    longValue (text.takeWhile (· != '=')) (text.dropWhile (· != '=')) names
  | '-' :: short :: value =>
    (names.find? (·.short? == some short)).map fun n => ⟨n, attachedValue value⟩
  | _ => none

/-- Whether an argument can be the value of the option before it: it does not start with a hyphen,
or it is just one. -/
def isValue (argument : String) : Bool :=
  match argument.toList with
  | '-' :: _ :: _ => false
  | _ => true

def fill {α : Type} (place : Option α) (value : α) : Option (Option α) :=
  match place with
  | none => some (some value)
  | some _ => none

namespace ReadOptions

/-- Takes an option and its value up. -/
def set? (options : ReadOptions) (name : OptionName) (value : String) : Option ReadOptions :=
  match name with
  | .config => none
  | .reader =>
    match Text.readUnsigned 10 UInt64.size value.toList with
    | .ok n => (fill options.readerIndex n).map fun v => { options with readerIndex := v }
    | .error _ => none
  | .documentNumber =>
    (fill options.documentNumber value).map fun v => { options with documentNumber := v }
  | .birthDate => (fill options.birthDate value).map fun v => { options with birthDate := v }
  | .expiryDate => (fill options.expiryDate value).map fun v => { options with expiryDate := v }
  | .can => (fill options.can value).map fun v => { options with can := v }
  | .file =>
    match FileIdentifier.ofName value with
    | .ok f => some { options with files := options.files ++ [f] }
    | .error _ => none

/-- Takes the flag `--pace` up. -/
def setPace? (options : ReadOptions) : Option ReadOptions :=
  if options.pace then none else some { options with pace := true }

/-- Whether there is enough to get access with. -/
def isComplete (options : ReadOptions) : Bool :=
  options.can.isSome ||
    (options.documentNumber.isSome && options.birthDate.isSome && options.expiryDate.isSome)

/-- Reads the arguments of `read`; they may end with a lone `--`. -/
def parse? (options : ReadOptions) : List String → Option ReadOptions
  | [] => some options
  | argument :: rest =>
    if argument = "--" then
      if rest.isEmpty then some options else none
    else if argument = "--pace" then options.setPace?.bind fun o => parse? o rest
    else
      match givenOption? OptionName.ofRead argument with
      | none => none
      | some ⟨name, some value⟩ => (options.set? name value).bind fun o => parse? o rest
      | some ⟨name, none⟩ =>
        match rest with
        | [] => none
        | value :: others =>
          if isValue value then (options.set? name value).bind fun o => parse? o others else none

end ReadOptions

namespace Arguments

/-- The name of a configuration file must not be empty and is given once. -/
def setConfig? (config : Option String) (value : String) : Option (Option String) :=
  if value.isEmpty then none else fill config value

/-- Reads the subcommand and what follows it. -/
def parseMode? (subcommand : String) (rest : List String) : Option Mode :=
  if subcommand = "list-readers" then
    if rest = [] ∨ rest = ["--"] then some .listReaders else none
  else if subcommand = "read" then
    (ReadOptions.parse? {} rest).bind fun options =>
      if options.isComplete then some (.read options) else none
  else none

/-- Reads a command line of which the name of a configuration file may be known. -/
def parseFrom? (config : Option String) : List String → Option Arguments
  | [] => none
  | argument :: rest =>
    match givenOption? [.config] argument with
    | none => (parseMode? argument rest).map fun mode => ⟨config, mode⟩
    | some ⟨_, some value⟩ => (setConfig? config value).bind fun c => parseFrom? c rest
    | some ⟨_, none⟩ =>
      match rest with
      | [] => none
      | value :: others =>
        if isValue value then (setConfig? config value).bind fun c => parseFrom? c others else none

/-- Reads a command line; none if it is to be rejected. -/
def parse? (arguments : List String) : Option Arguments :=
  parseFrom? none arguments

end Arguments
end TravelDocument.Tool
