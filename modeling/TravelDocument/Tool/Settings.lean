import TravelDocument.Session.Config
import TravelDocument.Tool.Toml

/-!
# Settings

Settings come from a configuration file and then from the environment, where later assignments
replace earlier ones. Values in the environment are text and are converted to what each setting
needs.
-/

namespace TravelDocument.Tool

structure Settings where
  session : SessionConfig := {}
  /-- The reader to use unless the command line names one. -/
  readerIndex : Nat := 0
  logLevel : String := "info"
  deriving DecidableEq, Repr

/-! ## Conversions -/

namespace Scalar

def trueWords : List String := ["1", "true", "on", "yes"]
def falseWords : List String := ["0", "false", "off", "no"]

def toBool? : Scalar → Option Bool
  | .boolean b => some b
  | .integer n => some (n != 0)
  | .text s =>
    let word := s.map Char.toLower
    if trueWords.contains word then some true
    else if falseWords.contains word then some false
    else none

/-- A value as an unsigned integer of 64 bits. -/
def toUnsigned? : Scalar → Option Nat
  | .boolean b => some b.toNat
  | .integer n => if n < 0 then none else some n.toNat
  | .text s =>
    let word := s.map Char.toLower
    if word = "true" ∨ word = "on" ∨ word = "yes" then some 1
    else if word = "false" ∨ word = "off" ∨ word = "no" then some 0
    else (Text.readUnsigned 10 UInt64.size s.toList).toOption

def toText : Scalar → String
  | .boolean b => if b then "true" else "false"
  | .integer n => if n < 0 then "-" ++ n.natAbs.repr else n.natAbs.repr
  | .text s => s

/-- A value as a policy for response MACs, in exactly these words. -/
def toPolicy? : Scalar → Option MacPolicy
  | .text s =>
    if s = "strict" then some .strict
    else if s = "lenient" then some .lenient
    else none
  | _ => none

end Scalar

/-! ## Assignments -/

namespace Assignment

/-- Whether two assignments cannot stand together: one is to the other's setting or to a table on
the way to it. -/
def conflicts (a b : Assignment) : Bool :=
  a.path.isPrefixOf b.path || b.path.isPrefixOf a.path

end Assignment

/-- Adds an assignment, which replaces the ones it conflicts with. -/
def assign (assignments : List Assignment) (a : Assignment) : List Assignment :=
  assignments.filter (fun b => !b.conflicts a) ++ [a]

/-- The value of a setting: `dflt` if there is none, and a failure if it does not convert or is a
table. -/
def setting? {α : Type} (assignments : List Assignment) (path : List String) (dflt : α)
    (convert : Scalar → Option α) : Option α :=
  match assignments.find? (path.isPrefixOf ·.path) with
  | none => some dflt
  | some a => if a.path = path then convert a.value else none

/-- The settings that assignments make. Settings that are not known do not matter, and a single
value does not make a configuration of the session. -/
def Settings.ofAssignments? (assignments : List Assignment) : Option Settings := do
  let base : Settings := {}
  if assignments.any (·.path == ["session"]) then none
  let session := fun key => ["session", key]
  let maxReadLength ←
    setting? assignments (session "max_read_length") base.session.maxReadLength Scalar.toUnsigned?
  let extendedLength ←
    setting? assignments (session "extended_length") base.session.extendedLength Scalar.toBool?
  let certificateBlockSize ← setting? assignments (session "certificate_block_size")
    base.session.certificateBlockSize Scalar.toUnsigned?
  let macPolicy ← setting? assignments (session "mac_check") base.session.macPolicy
      Scalar.toPolicy?
  let readerIndex ← setting? assignments ["reader_index"] base.readerIndex Scalar.toUnsigned?
  let logLevel ← setting? assignments ["log_level"] base.logLevel (some ·.toText)
  return ⟨⟨maxReadLength, extendedLength, certificateBlockSize, macPolicy⟩,
    readerIndex, logLevel⟩

/-! ## Sources -/

def path? (name : List Char) : Option (List String) :=
  (Toml.splitAt '.' name).mapM fun part =>
    if part.isEmpty || !part.all Toml.isKeyCharacter then none else some (String.ofList part)

def override? (name value : String) : Option Assignment :=
  (path? name.toList).map fun path => ⟨path, .text value⟩

/-- The settings from overrides alone. Each of them must have a proper name. -/
def Settings.ofOverrides? (overrides : List (String × String)) : Option Settings := do
  let assignments ← overrides.mapM fun (name, value) => override? name value
  Settings.ofAssignments? (assignments.foldl assign [])

/-- What the names of variables in the environment start with; case does not matter. -/
def variableMark : List Char := ['m', 'r', 't', 'd', '_']

/-- Puts a dot for every two underscores. -/
def dotsForUnderscores : List Char → List Char
  | '_' :: '_' :: rest => '.' :: dotsForUnderscores rest
  | c :: rest => c :: dotsForUnderscores rest
  | [] => []

/-- The assignment that a variable makes, if any. -/
def ofVariable? (name value : String) : Option Assignment :=
  let lower := name.toList.map Char.toLower
  if variableMark.isPrefixOf lower then
    override? (String.ofList (dotsForUnderscores (lower.drop variableMark.length))) value
  else none

/-- Where settings are looked up. -/
structure Sources where
  /-- The contents of the file with a given name, if there is one. -/
  file? : String → Option String
  environment : List (String × String)

/-- The name of the configuration file without its ending. -/
def defaultConfigName : String := "mrtd-tool"

def configEnding : String := ".toml"

/-- Whether a file name has the ending of configuration files and something before it. -/
def hasConfigEnding (name : String) : Bool :=
  let base := (name.toList.reverse.takeWhile (· != '/')).reverse
  let ending := configEnding.toList
  base.length > ending.length && ending.isSuffixOf base

/-- The contents of a configuration file. Its name may be given without ending, but a file of
exactly that name must have it. -/
def Sources.config? (sources : Sources) (name : String) : Option String :=
  match sources.file? name with
  | some text => if hasConfigEnding name then some text else none
  | none => sources.file? (name ++ configEnding)

/-- The assignments of the configuration file: the one that is named, which must exist, or else the
default one if it does. -/
def Sources.fileAssignments? (sources : Sources) (name : Option String) :
    Option (List Assignment) :=
  match name with
  | some name => (sources.config? name).bind Toml.parse?
  | none =>
    match sources.config? defaultConfigName with
    | some text => Toml.parse? text
    | none => some []

/-- The settings from the configuration file and the environment. -/
def Settings.load? (sources : Sources) (config : Option String) : Option Settings := do
  let fromFile ← sources.fileAssignments? config
  let fromEnvironment := sources.environment.filterMap fun (name, value) => ofVariable? name value
  Settings.ofAssignments? ((fromFile ++ fromEnvironment).foldl assign [])

end TravelDocument.Tool
