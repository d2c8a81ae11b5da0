/-!
# Common encodings

These are encodings that every system has.  An encoding is known by a name and some aliases.  How a
name is written hardly matters: letters may be in either case, and any run of characters other than
letters, digits and dots separates words.
-/

namespace SourceDoc

/-- An encoding that every system has. -/
inductive Encoding where
  | utf8
  /-- As `utf8`, with an optional mark at the start that is no part of the text. -/
  | utf8Marked
  | latin1
  | ascii
  /-- Pairs of bytes in the order that the mark at the start tells. -/
  | utf16
  | utf16Little
  | utf16Big
  deriving DecidableEq, Repr

namespace Encoding

/-- The common encodings. -/
def all : List Encoding :=
  [.utf8, .utf8Marked, .latin1, .ascii, .utf16, .utf16Little, .utf16Big]

/-- The name of an encoding, in normal form. -/
def name : Encoding → String
  | .utf8 => "utf_8"
  | .utf8Marked => "utf_8_sig"
  | .latin1 => "latin_1"
  | .ascii => "ascii"
  | .utf16 => "utf_16"
  | .utf16Little => "utf_16_le"
  | .utf16Big => "utf_16_be"

/-- The other names of an encoding, in normal form. -/
def aliases : Encoding → List String
  | .utf8 => ["u8", "utf", "utf8", "utf8_ucs2", "utf8_ucs4", "cp65001"]
  | .utf8Marked => []
  | .latin1 =>
    ["8859", "cp819", "csisolatin1", "ibm819", "iso8859", "iso8859_1", "iso_8859_1",
      "iso_8859_1_1987", "iso_ir_100", "l1", "latin", "latin1"]
  | .ascii =>
    ["646", "ansi_x3.4_1968", "ansi_x3_4_1968", "ansi_x3.4_1986", "cp367", "csascii", "ibm367",
      "iso646_us", "iso_646.irv_1991", "iso_ir_6", "us", "us_ascii"]
  | .utf16 => ["u16", "utf16"]
  | .utf16Little => ["unicodelittleunmarked", "utf_16le"]
  | .utf16Big => ["unicodebigunmarked", "utf_16be"]

/-- The rest of a name in normal form.  `started` tells whether a word came before, and `apart`
whether something separates it from the next. -/
def normalFrom (started apart : Bool) : List Char → List Char
  | [] => []
  | c :: rest =>
    if c.isAlphanum || c = '.' then
      let word := c.toLower :: normalFrom true false rest
      if started && apart then '_' :: word else word
    else normalFrom started true rest

/-- A name in normal form: its words in lower case, joined by underscores. -/
def normalForm (name : String) : String :=
  String.ofList (normalFrom false false name.toList)

/-- The name with its dots written as underscores. -/
def undotted (name : String) : String :=
  String.ofList (name.toList.map fun c => if c = '.' then '_' else c)

/-- The encoding with a name, however the name is written. -/
def ofName? (name : String) : Option Encoding :=
  let normal := normalForm name
  all.find? fun e =>
    e.aliases.contains normal || e.aliases.contains (undotted normal) || e.name == normal

/-- UTF-8 is known by its name. -/
theorem ofName?_utf8 : ofName? "utf-8" = some .utf8 := by decide +kernel

end Encoding

end SourceDoc
