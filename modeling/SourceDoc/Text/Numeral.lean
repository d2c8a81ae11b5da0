import SourceDoc.Text.Blank
import SourceDoc.Text.Digit

/-!
# Integers as people write them

An integer may stand between blanks, may have one sign, and may group its digits with single
underscores; decimal digits of every script are taken.  In base sixteen `0x` may come first.
-/

namespace SourceDoc.Text

/-- Whether the character may pad an integer: a blank, the ASCII information separators apart. -/
def isPadding (c : Char) : Bool :=
  isBlank c && !(0x1c ≤ c.toNat && c.toNat ≤ 0x1f)

/-- The value of a digit in a base of at most sixteen. -/
def digitIn? (base : Nat) (c : Char) : Option Nat :=
  let value? :=
    match digitValue? c with
    | some d => some d
    | none =>
      if 'a' ≤ c && c ≤ 'f' then some (c.toNat - 'a'.toNat + 10)
      else if 'A' ≤ c && c ≤ 'F' then some (c.toNat - 'A'.toNat + 10)
      else none
  value?.filter (· < base)

/-- The value of digits grouped by single underscores, read after a prefix of value `acc`; `closed`
tells whether a digit came last. -/
def digitsFrom? (base acc : Nat) (closed : Bool) : List Char → Option Nat
  | [] => if closed then some acc else none
  | c :: rest =>
    if c = '_' then
      if closed then digitsFrom? base acc false rest else none
    else
      match digitIn? base c with
      | some d => digitsFrom? base (acc * base + d) true rest
      | none => none

/-- What follows the mark of the base, `0x` with an optional underscore. -/
def dropBaseMark (text : List Char) : List Char :=
  match text with
  | zero :: x :: rest =>
    if digitValue? zero = some 0 && (x = 'x' || x = 'X') then
      match rest with
      | '_' :: digits => digits
      | digits => digits
    else text
  | _ => text

/-- The magnitude of an unsigned integer. -/
def magnitude? (base : Nat) (text : List Char) : Option Nat :=
  digitsFrom? base 0 false (if base = 16 then dropBaseMark text else text)

/-- The integer that a text writes in the given base. -/
def integer? (base : Nat) (text : List Char) : Option Int :=
  match ((text.dropWhile isPadding).reverse.dropWhile isPadding).reverse with
  | '+' :: rest => (magnitude? base rest).map Int.ofNat
  | '-' :: rest => (magnitude? base rest).map fun n => -(n : Int)
  | rest => (magnitude? base rest).map Int.ofNat

/-- The most digits that a decimal integer may have. -/
def digitLimit : Nat := 4300

/-- The integer that a text writes in base ten, if it has no more digits than the limit. -/
def decimal? (text : List Char) : Option Int :=
  if text.countP (fun c => (digitValue? c).isSome) ≤ digitLimit then integer? 10 text else none

end SourceDoc.Text
