import RangeIndex.Markup.Bytes
import RangeIndex.Text.Utf8

/-! Character references in stored text. Five names and all code points can be referred to; what
looks like a reference and is none stands for itself. Decoding goes once from left to right, so
a decoded ampersand starts nothing. -/
namespace RangeIndex.Markup

open Text

/-- The value of a digit of a base up to sixteen. -/
def digitValue (base : Nat) (b : UInt8) : Option Nat :=
  let value := if 0x30 ≤ b && b ≤ 0x39 then b.toNat - 0x30
    else if 0x61 ≤ b && b ≤ 0x66 then b.toNat - 0x61 + 10
    else if 0x41 ≤ b && b ≤ 0x46 then b.toNat - 0x41 + 10
    else base
  if value < base then some value else none

/-- The value of a run of digits, if all are digits. -/
def digitsValue (base : Nat) (digits : List UInt8) : Option Nat :=
  digits.foldlM (fun value b => (digitValue base b).map (value * base + ·)) 0

/-- A number of a reference: at least one digit, after a plus sign if there is one. -/
def readNumber (base : Nat) : List UInt8 → Option Nat
  | [] => none
  | [0x2B] => none
  | 0x2B :: digits => digitsValue base digits
  | digits => digitsValue base digits

/-- The character of a code point, surrogates having none. -/
def charOf (code : Nat) : Option Char :=
  if valid : code.isValidChar then some (Char.ofNatAux code valid) else none

/-- The character referred to between an ampersand and a semicolon. -/
def referent : List UInt8 → Option Char
  | 0x23 :: 0x78 :: digits | 0x23 :: 0x58 :: digits => (readNumber 16 digits).bind charOf
  | 0x23 :: digits => (readNumber 10 digits).bind charOf
  | name =>
    if name = bytesOf "lt" then some '<'
    else if name = bytesOf "gt" then some '>'
    else if name = bytesOf "amp" then some '&'
    else if name = bytesOf "quot" then some '"'
    else if name = bytesOf "apos" then some '\''
    else none

/-- The reference that the bytes after an ampersand start with, and the bytes after it. A
reference reaches to the next semicolon. -/
def takeReference (bytes : List UInt8) : Option (Char × List UInt8) :=
  match breakAt 0x3B bytes with
  | (name, _ :: rest) => (referent name).map (·, rest)
  | (_, []) => none

theorem takeReference_length_le {bytes rest : List UInt8} {c : Char}
    (found : takeReference bytes = some (c, rest)) : rest.length ≤ bytes.length := by
  unfold takeReference at found
  split at found
  · next split =>
    have bound := breakAt_length_le 0x3B bytes
    rw [split] at bound
    obtain ⟨_, _, same⟩ := Option.map_eq_some_iff.mp found
    cases same
    exact Nat.le_of_succ_le bound
  · cases found

/-- The bytes with every reference replaced by the bytes of its character. -/
def decodeReferences : List UInt8 → List UInt8
  | [] => []
  | b :: rest =>
    if b = 0x26 then
      match found : takeReference rest with
      | some (c, later) =>
        have := takeReference_length_le found
        String.utf8EncodeChar c ++ decodeReferences later
      | none => b :: decodeReferences rest
    else b :: decodeReferences rest
termination_by bytes => bytes.length
decreasing_by all_goals simp only [List.length_cons]; omega

/-- The bytes with references replaced; bytes without an ampersand are returned as they are. -/
def decodeBytes (bytes : List UInt8) : List UInt8 :=
  if bytes.contains 0x26 then decodeReferences bytes else bytes

/-- The text that stored bytes stand for. -/
def decodeText (bytes : List UInt8) : List Char := Utf8.decode (decodeBytes bytes)

end RangeIndex.Markup
