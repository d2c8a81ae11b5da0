import SourceDoc.NameMap
import SourceDoc.Service.Payload

/-!
# Requests

A request is read from a payload.  Everything that is not in order is reported, field by field, with
the way to it; fields that are not known are passed over.
-/

namespace SourceDoc.Service

/-! ### Issues -/

/-- A step on the way to a part of a payload. -/
inductive Step where
  | field (name : String)
  | item (index : Nat)
  deriving DecidableEq, Repr

/-- What is not in order. -/
inductive IssueKind where
  /-- A field that is required is not there. -/
  | missing
  /-- Not a text. -/
  | stringType
  /-- Not an object. -/
  | objectType
  /-- Not a list. -/
  | listType
  /-- A number with a fraction. -/
  | fraction
  /-- A text that writes no integer. -/
  | integerText
  /-- A text with too many digits or a decimal of too large an integer. -/
  | integerSize
  /-- Nothing that could be an integer. -/
  | integerType
  /-- An integer that is too small. -/
  | tooSmall
  /-- A text or number that is no flag. -/
  | flagText
  /-- Nothing that could be a flag. -/
  | flagType
  deriving DecidableEq, Repr

/-- The label of an issue. -/
def IssueKind.label : IssueKind → String
  | .missing => "missing"
  | .stringType => "string_type"
  | .objectType => "model_attributes_type"
  | .listType => "list_type"
  | .fraction => "int_from_float"
  | .integerText => "int_parsing"
  | .integerSize => "int_parsing_size"
  | .integerType => "int_type"
  | .tooSmall => "greater_than_equal"
  | .flagText => "bool_parsing"
  | .flagType => "bool_type"

/-- Something in a payload that is not in order. -/
structure Issue where
  /-- The way to it. -/
  path : List Step
  /-- What is not in order. -/
  kind : IssueKind
  deriving DecidableEq, Repr

/-- A value, or all issues that were found. -/
abbrev Checked (α : Type) := Except (List Issue) α

/-- A single issue. -/
def issue {α : Type} (path : List Step) (kind : IssueKind) : Checked α := .error [⟨path, kind⟩]

/-- Two values, or the issues of both. -/
def both {α β : Type} : Checked α → Checked β → Checked (α × β)
  | .ok a, .ok b => .ok (a, b)
  | .ok _, .error issues => .error issues
  | .error issues, .ok _ => .error issues
  | .error first, .error second => .error (first ++ second)

/-! ### Plain values -/

/-- Reads a text. -/
def checkText (path : List Step) : Payload → Checked String
  | .text value => .ok value
  | _ => issue path .stringType

/-! ### Integers -/

/-- The first integer beyond a signed word of 64 bits. -/
def wordBound : Int := 9223372036854775808

/-- What the digits of a number with a number of decimal places are divided by. -/
def scale (places : Nat) : Int := Int.ofNat (Nat.pow 10 places)

/-- The integer that a decimal equals, which has to lie within a word. -/
def wholeDecimal (digits : Int) (places : Nat) : Except IssueKind Int :=
  if digits % scale places = 0 then
    let whole := digits / scale places
    if -wordBound < whole && whole < wordBound then .ok whole else .error .integerSize
  else .error .fraction

/-- The most digits of an integer. -/
def digitLimit : Nat := 4300

/-- The value of digits. -/
def digitsValue (digits : List Char) : Nat :=
  digits.foldl (fun value c => value * 10 + (c.toNat - '0'.toNat)) 0

/-- The natural number that a text begins with and the rest of the text.  A zero in front is the whole
number. -/
def leadingNumber (text : List Char) : Except IssueKind (Nat × List Char) :=
  match text.takeWhile Char.isDigit with
  | [] => .error .integerText
  | '0' :: _ => .ok (0, text.drop 1)
  | digits =>
    if digitLimit < digits.length then .error .integerSize
    else .ok (digitsValue digits, text.dropWhile Char.isDigit)

/-- The natural number that a text writes. -/
def wholeNumber (text : List Char) : Except IssueKind Nat :=
  match leadingNumber text with
  | .ok (n, []) => .ok n
  | .ok _ => .error .integerText
  | .error kind => .error kind

/-- The integer that a text writes: digits without zeros in front, and a minus sign if one likes. -/
def plainInteger (text : List Char) : Except IssueKind Int :=
  match text with
  | '-' :: rest => (wholeNumber rest).map fun n => -(n : Int)
  | _ => (wholeNumber text).map Int.ofNat

/-- Whether a character may stand around an integer. -/
def isAround (c : Char) : Bool :=
  let n := c.toNat
  (0x09 ≤ n && n ≤ 0x0d) || n == 0x20 || n == 0x85 || n == 0xa0 || n == 0x1680 ||
    (0x2000 ≤ n && n ≤ 0x200a) || n == 0x2028 || n == 0x2029 || n == 0x202f || n == 0x205f ||
    n == 0x3000

/-- The text behind zeros and underscores; `last` is the character read before.  At the end of the text
and before a point it stays. -/
def afterZeros (last : Char) : List Char → Option (List Char)
  | [] => some [last]
  | c :: rest =>
    if c = '0' || c = '_' then afterZeros c rest
    else if c = '.' then some (last :: c :: rest)
    else if c.isDigit || c = '-' then some (c :: rest)
    else none

/-- The text without the zeros in front of it.  A minus sign may follow them. -/
def dropZeros (text : List Char) : Option (List Char) :=
  match text with
  | [] => none
  | c :: rest =>
    if c = '0' then afterZeros c rest
    else if c.isDigit || c = '-' then some text
    else none

/-- The text without a point and the zeros behind it. -/
def dropFraction (text : List Char) : List Char :=
  let fraction := (text.dropWhile (· != '.')).drop 1
  if !fraction.isEmpty && fraction.all (· = '0') then text.takeWhile (· != '.') else text

/-- Whether each underscore stands between two characters that are none; `last` is the character read
before. -/
def isGrouped (last : Char) : List Char → Bool
  | [] => last != '_'
  | c :: rest => !(c = '_' && last = '_') && isGrouped c rest

/-- The text without underscores, if each of them parts two groups. -/
def ungroup (text : List Char) : List Char :=
  if isGrouped '_' text then text.filter (· != '_') else text

/-- The text without what may stand around, in front of and between the digits of an integer. -/
def bareInteger? (text : List Char) : Option (List Char) :=
  let digits? := match ((text.dropWhile isAround).reverse.dropWhile isAround).reverse with
    | '+' :: '-' :: _ => none
    | '+' :: rest => dropZeros rest
    | '-' :: rest => (dropZeros rest).map ('-' :: ·)
    | rest => dropZeros rest
  digits?.map fun digits => ungroup (dropFraction digits)

/-- The integer that a text writes, as it stands or bare.  Only digits of the text as it stands can be
too many; a bare text with as many is simply none of an integer. -/
def integerOf (text : List Char) : Except IssueKind Int :=
  match plainInteger text, bareInteger? text with
  | .error .integerText, some bare => (plainInteger bare).mapError fun _ => .integerText
  | outcome, _ => outcome

/-- Reads an integer: a number without fraction, a flag, or a text that writes one. -/
def checkInteger (path : List Step) : Payload → Checked Int
  | .integer value => .ok value
  | .decimal digits places => (wholeDecimal digits places).mapError fun kind => [⟨path, kind⟩]
  | .flag value => .ok (if value then 1 else 0)
  | .text value => (integerOf value.toList).mapError fun kind => [⟨path, kind⟩]
  | _ => issue path .integerType

/-- Reads an integer that is at least one. -/
def checkPositive (path : List Step) (payload : Payload) : Checked Int :=
  (checkInteger path payload).bind fun n => if n < 1 then issue path .tooSmall else .ok n

/-! ### Flags -/

/-- The words for true in requests. -/
def trueTexts : List String := ["1", "on", "t", "true", "y", "yes"]

/-- The words for false in requests. -/
def falseTexts : List String := ["0", "off", "f", "false", "n", "no"]

/-- The flag that an integer stands for. -/
def flagOfNumber (path : List Step) (value : Int) : Checked Bool :=
  if value = 0 then .ok false
  else if value = 1 then .ok true
  else if -wordBound ≤ value && value < wordBound then issue path .flagText
  else issue path .flagType

/-- Reads a flag: a flag, zero or one, or a word for one of them. -/
def checkFlag (path : List Step) : Payload → Checked Bool
  | .flag value => .ok value
  | .integer value => flagOfNumber path value
  | .decimal digits places =>
    match wholeDecimal digits places with
    | .ok value => flagOfNumber path value
    | .error _ => issue path .flagType
  | .text value =>
    let word := String.ofList (value.toList.map Char.toLower)
    if trueTexts.contains word then .ok true
    else if falseTexts.contains word then .ok false
    else issue path .flagText
  | _ => issue path .flagType

/-! ### Fields -/

/-- The fields of an object. -/
abbrev Fields := List (String × Payload)

/-- Reads a field that is required. -/
def required {α : Type} (check : List Step → Payload → Checked α) (path : List Step)
    (fields : Fields) (name : String) : Checked α :=
  let path := path ++ [.field name]
  match NameMap.get? fields name with
  | none => issue path .missing
  | some payload => check path payload

/-- Reads a field that may be missing or null. -/
def optional {α : Type} (check : List Step → Payload → Checked α) (path : List Step)
    (fields : Fields) (name : String) : Checked (Option α) :=
  match NameMap.get? fields name with
  | none => .ok none
  | some .null => .ok none
  | some payload => (check (path ++ [.field name]) payload).map some

/-- Reads the items of a list, the first of which has the given index. -/
def checkItems {α : Type} (check : List Step → Payload → Checked α) (path : List Step)
    (index : Nat) : List Payload → Checked (List α)
  | [] => .ok []
  | item :: rest =>
    (both (check (path ++ [.item index]) item) (checkItems check path (index + 1) rest)).map
      fun (first, others) => first :: others

/-- Reads a list. -/
def checkList {α : Type} (check : List Step → Payload → Checked α) (path : List Step) :
    Payload → Checked (List α)
  | .list items => checkItems check path 0 items
  | _ => issue path .listType

/-- Reads an object. -/
def checkObject {α : Type} (check : List Step → Fields → Checked α) (path : List Step) :
    Payload → Checked α
  | .object fields => check path fields
  | _ => issue path .objectType

/-! ### Requests -/

/-- A request for one unit. -/
structure UnitRequest where
  /-- The source. -/
  code : String
  /-- The name of the file. -/
  filename : Option String
  deriving DecidableEq, Repr

/-- A request for many units. -/
structure BatchRequest where
  /-- The units. -/
  units : List UnitRequest
  /-- How many units are handled at once. -/
  maxWorkers : Option Int
  /-- Whether results are in the order of the units. -/
  preserveOrder : Option Bool
  deriving DecidableEq, Repr

/-- A request for the facts about a repository. -/
structure SummaryRequest where
  /-- The units. -/
  batch : BatchRequest
  /-- The name of the repository. -/
  repositoryName : String
  deriving DecidableEq, Repr

/-- Reads a request for one unit from its fields. -/
def unitFields (path : List Step) (fields : Fields) : Checked UnitRequest :=
  (both (required checkText path fields "code") (optional checkText path fields "filename")).map
    fun (code, filename) => { code, filename }

/-- Reads a request for many units from its fields. -/
def batchFields (path : List Step) (fields : Fields) : Checked BatchRequest :=
  (both (required (checkList (checkObject unitFields)) path fields "units")
    (both (optional checkPositive path fields "max_workers")
      (optional checkFlag path fields "preserve_order"))).map
    fun (units, maxWorkers, preserveOrder) => { units, maxWorkers, preserveOrder }

/-- Reads a request for the facts about a repository from its fields. -/
def summaryFields (path : List Step) (fields : Fields) : Checked SummaryRequest :=
  (both (batchFields path fields) (required checkText path fields "repository_name")).map
    fun (batch, repositoryName) => { batch, repositoryName }

/-- Reads a request from the body; no body at all is a missing one. -/
def checkBody {α : Type} (check : List Step → Fields → Checked α) (body : Payload) : Checked α :=
  let path : List Step := [.field "body"]
  match body with
  | .null => issue path .missing
  | payload => checkObject check path payload

end SourceDoc.Service
