import TravelDocument.Handshake.CardAccess
import TravelDocument.Session.Perform
import TravelDocument.Tool.Arguments
import TravelDocument.Tool.Failure
import TravelDocument.Tool.Settings

/-!
# The tool

The tool lists readers, or gets access to a travel document and prints files from it. PACE is used
if it is asked for and offered, and BAC otherwise; a failure of either ends the run.
-/

namespace TravelDocument.Tool

/-- The smart card service of the machine, with cards of memory `σ`. -/
structure Service (σ : Type) where
  context : Except ReaderError Unit
  readers : Except ReaderError (List String)
  /-- The memory of the card in a reader. -/
  connect : String → Except ReaderError σ
  card : Card σ

/-- A card in use: the session with it and the lines that have been printed. -/
structure Desk (σ : Type) where
  session : Session σ
  printed : List String

/-- A part of a run with a card. -/
abbrev Work (σ : Type) := EStateM Failure (Desk σ)

namespace Work

variable {σ : Type}

def print (line : String) : Work σ Unit :=
  modify fun desk => { desk with printed := desk.printed ++ [line] }

/-- Carries out a request of the session and hands its result on. -/
def request (config : SessionConfig) (card : Card σ) (r : Request) :
    Work σ (Except Error Value) :=
  fun desk =>
    let (outcome, session) := desk.session.perform config card r
    let desk := { desk with session := session }
    match outcome with
    | .ok value => .ok (.ok value) desk
    | .failed e => .ok (.error e) desk
    | .interrupted => .error .interrupted desk

/-- Carries out a request that ends the run if it fails. -/
def require (config : SessionConfig) (card : Card σ) (r : Request) (failure : Error → Failure) :
    Work σ Unit := do
  match ← request config card r with
  | .ok _ => return ()
  | .error e => throw (failure e)

def contents? (config : SessionConfig) (card : Card σ) (file : FileIdentifier)
    (activity : Activity) : Work σ (Option Bytes) := do
  match ← request config card (.readContents file) with
  | .ok (.bytes b) => return some b
  | .ok _ => return some []
  | .error .fileNotFound => return none
  | .error e => throw (.during activity e)

/-- The first offer with supported parameters. -/
def firstSupported? (infos : List PaceInfo) : Option PaceParameters :=
  infos.findSome? fun info => info.parameters.toOption

/-- The PACE parameters to use: the first supported ones that the chip offers, if it offers any. -/
def findPace (config : SessionConfig) (card : Card σ) : Work σ (Option PaceParameters) := do
  match ← contents? config card .cardAccess .readingCardAccess with
  | none => return none
  | some file =>
    print ("EF.CardAccess: " ++ Hex.ofBytes file)
    match CardAccess.decode file with
    | .ok infos => return firstSupported? infos
    | .error e => throw (.session e)

/-- Runs PACE with the given password, if the chip offers it; tells whether it did. -/
def runPace (config : SessionConfig) (card : Card σ) (password : PacePassword) : Work σ Bool := do
  match ← findPace config card with
  | none => return false
  | some params =>
    require config card (.pace params password) (.during .pace)
    return true

/-- The access key on the command line, if all of its fields are there. -/
def accessKey? (options : ReadOptions) : Except Failure (Option Mrz.AccessKey) :=
  match options.documentNumber, options.birthDate, options.expiryDate with
  | some number, some birth, some expiry =>
    match Mrz.AccessKey.make number birth expiry with
    | .ok key => .ok (some key)
    | .error e => .error (.accessKey e)
  | _, _, _ => .ok none

/-- The password of PACE: the card access number comes before the access key. -/
def password (options : ReadOptions) (key : Option Mrz.AccessKey) : Except Failure PacePassword :=
  match options.can, key with
  | some number, _ => .ok (.can number)
  | none, some key => .ok (.mrz key)
  | none, none => .error .paceWithoutPassword

def wantsPace (options : ReadOptions) : Bool :=
  options.pace || options.can.isSome

/-- Tries PACE if it is asked for; tells whether it has run. -/
def tryPace (config : SessionConfig) (card : Card σ) (options : ReadOptions)
    (key : Option Mrz.AccessKey) : Work σ Bool :=
  if wantsPace options then
    match password options key with
    | .ok p => runPace config card p
    | .error e => throw e
  else return false

/-- Selects the application, and runs BAC unless PACE has run. -/
def enterApplication (config : SessionConfig) (card : Card σ) (key : Option Mrz.AccessKey)
    (paceDone : Bool) : Work σ Unit := do
  require config card (.selectApplet applicationIdentifier) (.during .selectingApplication)
  if paceDone then return ()
  match key with
  | some key => require config card (.bac key) (.during .bac)
  | none => throw .bacWithoutKey

def fileLine (file : FileIdentifier) (contents : Option Bytes) : String :=
  Hex.ofBytes (Bytes.be 2 file.toNat) ++ ": " ++
    match contents with
    | some b => Hex.ofBytes b
    | none => "not present"

def printFiles (config : SessionConfig) (card : Card σ) : List FileIdentifier → Work σ Unit
  | [] => return ()
  | file :: rest => do
    print (fileLine file (← contents? config card file (.readingFile file)))
    printFiles config card rest

/-- The files to print: EF.COM unless others are named. -/
def requestedFiles (options : ReadOptions) : List FileIdentifier :=
  if options.files.isEmpty then [.common] else options.files

/-- Gets access to a document and prints files from it. -/
def read (config : SessionConfig) (card : Card σ) (options : ReadOptions) : Work σ Unit := do
  require config card .open .session
  match accessKey? options with
  | .error e => throw e
  | .ok key =>
    let paceDone ← tryPace config card options key
    enterApplication config card key paceDone
    printFiles config card (requestedFiles options)
    require config card .close .session

end Work

/-- What a run of the tool leaves behind. -/
structure Report (σ : Type) where
  printed : List String
  failure : Option Failure
  /-- The reader that was connected. -/
  reader : Option String
  /-- The session with the card in it. -/
  session : Option (Session σ)

namespace Report

variable {σ : Type}

/-- The report of a run that failed before a card was connected. -/
def early (failure : Failure) : Report σ :=
  ⟨[], some failure, none, none⟩

/-- The report of a run that listed readers. -/
def listing (readers : List String) : Report σ :=
  ⟨readers.mapIdx fun i name => i.repr ++ ": " ++ name, none, none, none⟩

/-- The report of a run with a card. -/
def ofWork (reader : String) (result : EStateM.Result Failure (Desk σ) Unit) : Report σ :=
  match result with
  | .ok _ desk => ⟨desk.printed, none, some reader, some desk.session⟩
  | .error e desk => ⟨desk.printed, some e, some reader, some desk.session⟩

end Report

/-- Connects to the card in a reader and reads from it. -/
def runRead {σ : Type} (settings : Settings) (service : Service σ) (entropy : Bytes)
    (readers : List String) (options : ReadOptions) : Report σ :=
  let index := options.readerIndex.getD settings.readerIndex
  match readers[index]? with
  | none => .early (.noReader index)
  | some reader =>
    match service.connect reader with
    | .error e => .early (.noConnection e)
    | .ok memory =>
      .ofWork reader
        (Work.read settings.session service.card options ⟨Session.new memory entropy, []⟩)

/-- Runs the tool with a command line. -/
def run {σ : Type} (sources : Sources) (service : Service σ) (entropy : Bytes)
    (arguments : Arguments) : Report σ :=
  match Settings.load? sources arguments.config with
  | none => .early .settings
  | some settings =>
    match service.context, service.readers with
    | .error e, _ => .early (.noService e)
    | .ok _, .error e => .early (.noReaderList e)
    | .ok _, .ok readers =>
      match arguments.mode with
      | .listReaders => .listing readers
      | .read options => runRead settings service entropy readers options

end TravelDocument.Tool
