import TravelDocument.Text.Unsigned

/-!
# Configuration files

The part of TOML that a configuration needs: comments, tables, dotted keys of letters, digits,
hyphens and underscores, and strings on one line, integers and booleans as values. A file is read
into the assignments it makes, in their order.
-/

namespace TravelDocument.Tool

/-- A value of a setting. -/
inductive Scalar where
  | text (s : String)
  | integer (n : Int)
  | boolean (b : Bool)
  deriving DecidableEq, Repr

/-- A setting and its value; the setting is named by the tables on the way to it and its key. -/
structure Assignment where
  path : List String
  value : Scalar
  deriving DecidableEq, Repr

namespace Toml

/-! ## Lines -/

def isBlank (c : Char) : Bool := c == ' ' || c == '\t'

/-- A character of a comment or a string. -/
def isTextCharacter (c : Char) : Bool :=
  c == '\t' || (0x20 ≤ c.toNat && c.toNat != 0x7F)

def skipBlanks (line : List Char) : List Char := line.dropWhile isBlank

/-- Whether nothing follows but a comment. -/
def isLineEnd (line : List Char) : Bool :=
  match skipBlanks line with
  | [] => true
  | '#' :: comment => comment.all isTextCharacter
  | _ => false

/-- The parts of a text between separators. -/
def splitAt (separator : Char) : List Char → List (List Char)
  | [] => [[]]
  | c :: rest =>
    if c = separator then [] :: splitAt separator rest
    else
      match splitAt separator rest with
      | [] => [[c]]
      | part :: parts => (c :: part) :: parts

def trimBlanks (text : List Char) : List Char :=
  (skipBlanks (skipBlanks text).reverse).reverse

def isKeyCharacter (c : Char) : Bool :=
  c.isAlphanum || c == '_' || c == '-'

def keyPart? (text : List Char) : Option String :=
  let part := trimBlanks text
  if part.isEmpty || !part.all isKeyCharacter then none else some (String.ofList part)

def key? (text : List Char) : Option (List String) :=
  (splitAt '.' text).mapM keyPart?

/-! ## Values -/

/-- The rest of a string between apostrophes, and what follows it. -/
def literalText? : List Char → Option (List Char × List Char)
  | [] => none
  | c :: rest =>
    if c = '\'' then some ([], rest)
    else if isTextCharacter c then (literalText? rest).map fun (t, r) => (c :: t, r)
    else none

/-- The character of an escape with one letter. -/
def escaped? : Char → Option Char
  | 'b' => some '\x08'
  | 't' => some '\t'
  | 'n' => some '\n'
  | 'f' => some '\x0c'
  | 'r' => some '\r'
  | '"' => some '"'
  | '\\' => some '\\'
  | _ => none

/-- The character with the given hexadecimal number. -/
def scalarValue? (digits : List Char) : Option Char :=
  if digits.head? = some '+' then none
  else
    match Text.readUnsigned 16 UInt32.size digits with
    | .ok n => if n.isValidChar then some (Char.ofNat n) else none
    | .error _ => none

/-- Puts a character in front of the text of a string. -/
def consText (c : Option Char) (rest : Option (List Char × List Char)) :
    Option (List Char × List Char) :=
  match c, rest with
  | some c, some (t, r) => some (c :: t, r)
  | _, _ => none

/-- The rest of a string between quotes, and what follows it. -/
def basicText? : List Char → Option (List Char × List Char)
  | [] => none
  | '"' :: rest => some ([], rest)
  | '\\' :: 'u' :: a :: b :: c :: d :: rest =>
    consText (scalarValue? [a, b, c, d]) (basicText? rest)
  | '\\' :: 'U' :: a :: b :: c :: d :: e :: f :: g :: h :: rest =>
    consText (scalarValue? [a, b, c, d, e, f, g, h]) (basicText? rest)
  | '\\' :: c :: rest => consText (escaped? c) (basicText? rest)
  | c :: rest => if isTextCharacter c then consText (some c) (basicText? rest) else none

/-- The digits of a number without underscores, which have to stand between digits. -/
def withoutUnderscores? (text : List Char) : Option (List Char) :=
  let groups := splitAt '_' text
  if groups.any (·.isEmpty) then none else some groups.flatten

/-- A number of digits in the given base. -/
def digits? (base : Nat) (text : List Char) : Option Nat :=
  match withoutUnderscores? text with
  | some ('+' :: _) | none => none
  | some ds => (Text.readUnsigned base (1 <<< 63 + 1) ds).toOption

/-- A decimal number; only zero starts with the digit zero. -/
def decimal? (text : List Char) : Option Nat :=
  match text with
  | '0' :: _ :: _ => none
  | _ => digits? 10 text

/-- An integer of 64 bits. -/
def integer? (text : List Char) : Option Int :=
  let n : Option Int :=
    match text with
    | '0' :: 'x' :: ds => (digits? 16 ds).map Int.ofNat
    | '0' :: 'o' :: ds => (digits? 8 ds).map Int.ofNat
    | '0' :: 'b' :: ds => (digits? 2 ds).map Int.ofNat
    | '-' :: ds => (decimal? ds).map fun n => - Int.ofNat n
    | '+' :: ds => (decimal? ds).map Int.ofNat
    | ds => (decimal? ds).map Int.ofNat
  n.filter (· < 0x8000000000000000)

/-- A boolean or an integer. -/
def plainScalar? (text : List Char) : Option Scalar :=
  if text = ['t', 'r', 'u', 'e'] then some (.boolean true)
  else if text = ['f', 'a', 'l', 's', 'e'] then some (.boolean false)
  else (integer? text).map .integer

/-- A value and what follows it on the line. -/
def scalar? (line : List Char) : Option (Scalar × List Char) :=
  match line with
  | '"' :: rest => (basicText? rest).map fun (t, r) => (.text (String.ofList t), r)
  | '\'' :: rest => (literalText? rest).map fun (t, r) => (.text (String.ofList t), r)
  | _ =>
    let isPlain := fun c => !isBlank c && c != '#'
    (plainScalar? (line.takeWhile isPlain)).map fun v => (v, line.dropWhile isPlain)

/-! ## Documents -/

/-- What a line says. -/
inductive Line where
  | blank
  | table (path : List String)
  | entry (key : List String) (value : Scalar)
  deriving DecidableEq, Repr

/-- The header of a table, behind its bracket. -/
def tableLine? (line : List Char) : Option Line :=
  match line.dropWhile (· != ']') with
  | ']' :: rest => if isLineEnd rest then (key? (line.takeWhile (· != ']'))).map .table else none
  | _ => none

/-- A key and its value. -/
def entryLine? (line : List Char) : Option Line :=
  match line.dropWhile (· != '=') with
  | '=' :: rest => do
    let key ← key? (line.takeWhile (· != '='))
    let (value, rest) ← scalar? (skipBlanks rest)
    if isLineEnd rest then some (.entry key value) else none
  | _ => none

def line? (line : List Char) : Option Line :=
  if isLineEnd line then some .blank
  else
    match skipBlanks line with
    | '[' :: rest => tableLine? rest
    | rest => entryLine? rest

/-- A file as far as it has been read. -/
structure Document where
  /-- The table that entries belong to. -/
  current : List String := []
  /-- Tables that have had a header. -/
  headers : List (List String) := []
  /-- Tables that dotted keys have made. -/
  dotted : List (List String) := []
  assignments : List Assignment := []
  deriving DecidableEq, Repr

namespace Document

/-- Starts a table. It must not have been started before or be a value. -/
def startTable? (d : Document) (path : List String) : Option Document :=
  if d.headers.contains path || d.dotted.contains path ||
      d.assignments.any (·.path.isPrefixOf path) then none
  else some { d with current := path, headers := path :: d.headers }

/-- The tables on the way from the current one to a key. -/
def tablesOf (d : Document) (key : List String) : List (List String) :=
  (List.range (key.length - 1)).map fun i => d.current ++ key.take (i + 1)

/-- Adds an entry. Its key must be new and must not go through a value or a table with a header. -/
def addEntry? (d : Document) (key : List String) (value : Scalar) : Option Document :=
  let path := d.current ++ key
  let tables := d.tablesOf key
  if d.assignments.any (fun a => a.path.isPrefixOf path || path.isPrefixOf a.path) ||
      d.headers.any (fun h => path.isPrefixOf h || tables.contains h) then none
  else
    some { d with
      dotted := tables ++ d.dotted
      assignments := d.assignments ++ [⟨path, value⟩] }

def add? (d : Document) : Line → Option Document
  | .blank => some d
  | .table path => d.startTable? path
  | .entry key value => d.addEntry? key value

end Document

/-- A line without the carriage return at its end. -/
def dropReturn (line : List Char) : List Char :=
  match line.reverse with
  | '\r' :: rest => rest.reverse
  | _ => line

/-- The assignments of a file, if it is well-formed. -/
def parse? (text : String) : Option (List Assignment) := do
  let lines ← (splitAt '\n' text.toList).mapM fun l => line? (dropReturn l)
  return (← lines.foldlM Document.add? {}).assignments

end Toml
end TravelDocument.Tool
