import SourceDoc.Diagnosis
import SourceDoc.Encoding.Basic
import SourceDoc.Text.Quoted

/-!
# Text from bytes

Bytes are decoded strictly: the first bytes that are no part of a text stop the decoding, and the
fault tells where they stand and why they were refused.
-/

namespace SourceDoc

open SourceDoc.Text

/-- Why bytes are refused. -/
inductive DecodeReason where
  /-- A byte that begins no character. -/
  | invalidStart
  /-- A byte that cannot stand inside a character. -/
  | invalidContinuation
  /-- The end inside a character. -/
  | unexpectedEnd
  /-- A byte above the range of the encoding. -/
  | notAscii
  /-- Half a pair of bytes at the end. -/
  | truncated
  /-- The second half of a surrogate pair without the first. -/
  | illegalEncoding
  /-- The first half of a surrogate pair without the second. -/
  | illegalSurrogate
  deriving DecidableEq, Repr

/-- The reason in words. -/
def DecodeReason.text : DecodeReason → String
  | .invalidStart => "invalid start byte"
  | .invalidContinuation => "invalid continuation byte"
  | .unexpectedEnd => "unexpected end of data"
  | .notAscii => "ordinal not in range(128)"
  | .truncated => "truncated data"
  | .illegalEncoding => "illegal encoding"
  | .illegalSurrogate => "illegal UTF-16 surrogate"

/-- Why bytes are no text. -/
inductive DecodeFault where
  /-- The encoding, where the refused bytes start, the first of them, how many follow it, and the
  reason. -/
  | refused (label : String) (start : Nat) (first : UInt8) (more : Nat) (reason : DecodeReason)
  /-- Pairs of bytes without a mark of their order. -/
  | noByteOrder
  deriving DecidableEq, Repr

/-- The message of a fault. -/
def DecodeFault.message : DecodeFault → String
  | .refused label start first more reason =>
    quoted label ++ " codec can't decode " ++
      (if more = 0 then
        "byte 0x" ++ String.ofList (hexPadded 2 first.toNat) ++ " in position " ++ toString start
      else "bytes in position " ++ toString start ++ "-" ++ toString (start + more)) ++
      ": " ++ reason.text
  | .noByteOrder => "UTF-16 stream does not start with BOM"

/-- The diagnosis of a fault. -/
def DecodeFault.diagnosis (fault : DecodeFault) : Diagnosis :=
  match fault with
  | .refused .. => ⟨.encoding, fault.message⟩
  | .noByteOrder => ⟨.unicode, fault.message⟩

namespace Encoding

/-! ### Characters of one to four bytes -/

/-- The bits that the first byte of a character contributes, and the ranges of the bytes that
follow. -/
def leadByte? (b : UInt8) : Option (Nat × List (UInt8 × UInt8)) :=
  let n := b.toNat
  let tail : UInt8 × UInt8 := (0x80, 0xbf)
  if n < 0x80 then some (n, [])
  else if n < 0xc2 then none
  else if n < 0xe0 then some (n - 0xc0, [tail])
  else if n < 0xf0 then
    let second : UInt8 × UInt8 :=
      if n = 0xe0 then (0xa0, 0xbf) else if n = 0xed then (0x80, 0x9f) else tail
    some (n - 0xe0, [second, tail])
  else if n < 0xf5 then
    let second : UInt8 × UInt8 :=
      if n = 0xf0 then (0x90, 0xbf) else if n = 0xf4 then (0x80, 0x8f) else tail
    some (n - 0xf0, [second, tail, tail])
  else none

/-- The number of a character from the bits so far and the bytes that follow; a fault tells how many
of them were taken. -/
def tailBytes (bits taken : Nat) :
    List (UInt8 × UInt8) → List UInt8 → Except (Nat × DecodeReason) Nat
  | [], _ => .ok bits
  | _ :: _, [] => .error (taken, .unexpectedEnd)
  | (low, high) :: ranges, b :: bytes =>
    if low ≤ b && b ≤ high then tailBytes (bits * 64 + b.toNat % 64) (taken + 1) ranges bytes
    else .error (taken, .invalidContinuation)

/-- The text of bytes that stand at a place, each character taking one to four bytes. -/
def decodeUtf8 (place : Nat) (bytes : List UInt8) : Except DecodeFault (List Char) :=
  match bytes with
  | [] => .ok []
  | b :: rest =>
    match leadByte? b with
    | none => .error (.refused "utf-8" place b 0 .invalidStart)
    | some (bits, ranges) =>
      match tailBytes bits 0 ranges rest with
      | .error (taken, reason) => .error (.refused "utf-8" place b taken reason)
      | .ok number =>
        (decodeUtf8 (place + 1 + ranges.length) (rest.drop ranges.length)).map
          (Char.ofNat number :: ·)
termination_by bytes.length
decreasing_by simp only [List.length_drop, List.length_cons]; omega

/-- The bytes that mark a text of one to four bytes a character. -/
def utf8Mark : List UInt8 := [0xef, 0xbb, 0xbf]

/-- The text of bytes that may begin with the mark.  Places are counted behind it; part of the mark
alone is the empty text. -/
def decodeUtf8Marked (bytes : List UInt8) : Except DecodeFault (List Char) :=
  if utf8Mark.isPrefixOf bytes then decodeUtf8 0 (bytes.drop 3)
  else if bytes.isPrefixOf utf8Mark then .ok []
  else decodeUtf8 0 bytes

/-! ### Characters of one byte -/

/-- The text of bytes that stand at a place, each being a character. -/
def decodeAscii (place : Nat) : List UInt8 → Except DecodeFault (List Char)
  | [] => .ok []
  | b :: rest =>
    if b < 0x80 then (decodeAscii (place + 1) rest).map (Char.ofNat b.toNat :: ·)
    else .error (.refused "ascii" place b 0 .notAscii)

/-- The text of bytes, each being a character. -/
def decodeLatin1 (bytes : List UInt8) : List Char :=
  bytes.map fun b => Char.ofNat b.toNat

/-! ### Characters of two or four bytes -/

/-- The order of the bytes in a pair. -/
inductive ByteOrder where
  | little
  | big
  deriving DecidableEq, Repr

/-- The label of the encoding with an order. -/
def ByteOrder.label : ByteOrder → String
  | .little => "utf-16-le"
  | .big => "utf-16-be"

/-- The number that a pair of bytes writes. -/
def ByteOrder.number (order : ByteOrder) (a b : UInt8) : Nat :=
  match order with
  | .little => b.toNat * 256 + a.toNat
  | .big => a.toNat * 256 + b.toNat

/-- Whether a number is the first half of a surrogate pair. -/
def isHighSurrogate (n : Nat) : Bool := 0xd800 ≤ n && n < 0xdc00

/-- Whether a number is the second half of a surrogate pair. -/
def isLowSurrogate (n : Nat) : Bool := 0xdc00 ≤ n && n < 0xe000

/-- The character that a surrogate pair writes. -/
def ofSurrogates (high low : Nat) : Char :=
  Char.ofNat (0x10000 + (high - 0xd800) * 1024 + (low - 0xdc00))

/-- The text of bytes that stand at a place, each character taking one or two pairs. -/
def decodeUtf16 (order : ByteOrder) (place : Nat) :
    List UInt8 → Except DecodeFault (List Char)
  | [] => .ok []
  | [a] => .error (.refused order.label place a 0 .truncated)
  | a :: b :: rest =>
    let n := order.number a b
    if isLowSurrogate n then .error (.refused order.label place a 1 .illegalEncoding)
    else if isHighSurrogate n then
      match rest with
      | c :: d :: rest =>
        let m := order.number c d
        if isLowSurrogate m then
          (decodeUtf16 order (place + 4) rest).map (ofSurrogates n m :: ·)
        else .error (.refused order.label place a 1 .illegalSurrogate)
      | half => .error (.refused order.label place a (1 + half.length) .unexpectedEnd)
    else (decodeUtf16 order (place + 2) rest).map (Char.ofNat n :: ·)

/-- The text of bytes that begin with a mark of their order. -/
def decodeUtf16Marked : List UInt8 → Except DecodeFault (List Char)
  | [] => .ok []
  | 0xff :: 0xfe :: rest => decodeUtf16 .little 2 rest
  | 0xfe :: 0xff :: rest => decodeUtf16 .big 2 rest
  | bytes => (decodeUtf16 .little 0 bytes).bind fun _ => .error .noByteOrder

/-! ### All encodings -/

/-- The text that bytes write in an encoding. -/
def decode : Encoding → List UInt8 → Except DecodeFault (List Char)
  | .utf8, bytes => decodeUtf8 0 bytes
  | .utf8Marked, bytes => decodeUtf8Marked bytes
  | .latin1, bytes => .ok (decodeLatin1 bytes)
  | .ascii, bytes => decodeAscii 0 bytes
  | .utf16, bytes => decodeUtf16Marked bytes
  | .utf16Little, bytes => decodeUtf16 .little 0 bytes
  | .utf16Big, bytes => decodeUtf16 .big 0 bytes

end Encoding

end SourceDoc
