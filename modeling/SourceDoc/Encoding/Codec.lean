import SourceDoc.Encoding.Decode

/-!
# Codecs

Which encodings there are, by which names they go and how they are decoded is a matter of the system.
So the codecs of a system are known here by what it answers to a name (`Codecs`); all that is relied on
is that UTF-8 is among them.  A system may also have codecs that do not give texts, which are known by
name and cannot be used for files.

The common encodings make up a system of their own (`Codecs.common`).
-/

namespace SourceDoc

/-- What a system has under a name. -/
inductive Codec where
  /-- An encoding of texts, with the text that bytes write in it, or the diagnosis of why they write
  none. -/
  | text (decode : List UInt8 → Except Diagnosis (List WideChar))
  /-- Something that gives no texts, with the diagnosis of its use for a file. -/
  | other (diagnosis : Diagnosis)

/-- A common encoding as a codec. -/
def Encoding.codec (encoding : Encoding) : Codec :=
  .text fun bytes =>
    match encoding.decode bytes with
    | .ok text => .ok (text.map .char)
    | .error fault => .error fault.diagnosis

/-- The codecs of a system. -/
structure Codecs where
  /-- What the system has under a name, however that is written. -/
  lookup? : String → Option Codec
  /-- UTF-8 goes by its name. -/
  lookup?_utf8 : lookup? "utf-8" = some Encoding.utf8.codec

namespace Codecs

/-- The decoder of files in the encoding with a name. -/
def decoder (codecs : Codecs) (name : String) :
    Except Diagnosis (List UInt8 → Except Diagnosis (List WideChar)) :=
  match codecs.lookup? name with
  | none => .error ⟨.lookup, "unknown encoding: " ++ name⟩
  | some (.other diagnosis) => .error diagnosis
  | some (.text decode) => .ok decode

/-- A system with the common encodings only. -/
def common : Codecs where
  lookup? name := (Encoding.ofName? name).map Encoding.codec
  lookup?_utf8 := congrArg (Option.map Encoding.codec) Encoding.ofName?_utf8

end Codecs

end SourceDoc
