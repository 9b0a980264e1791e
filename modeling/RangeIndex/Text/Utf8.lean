/-! Stored text arrives as bytes. Decoding never fails: a byte sequence that no character starts
with is read as one replacement character, and reading goes on at the first byte that the
sequence could not have contained. -/
namespace RangeIndex.Text.Utf8

/-- The character that stands for bytes no character is written with. -/
def replacement : Char := '\ufffd'

/-- The bytes of a text. -/
def encode (text : List Char) : List UInt8 := text.flatMap String.utf8EncodeChar

/-- A byte that continues a character. -/
def isContinuation (b : UInt8) : Bool := 0x80 ≤ b && b ≤ 0xBF

/-- Whether a byte may follow a given first byte. Four first bytes narrow their successor, which
rules out overlong forms, surrogates and numbers above the last code point. -/
def mayFollow (lead b : UInt8) : Bool :=
  if lead == 0xE0 then 0xA0 ≤ b && b ≤ 0xBF
  else if lead == 0xED then 0x80 ≤ b && b ≤ 0x9F
  else if lead == 0xF0 then 0x90 ≤ b && b ≤ 0xBF
  else if lead == 0xF4 then 0x80 ≤ b && b ≤ 0x8F
  else isContinuation b

/-- The number of bytes a first byte announces, or zero for a byte that starts no character. -/
def width (lead : UInt8) : Nat :=
  if lead < 0x80 then 1
  else if 0xC2 ≤ lead && lead ≤ 0xDF then 2
  else if 0xE0 ≤ lead && lead ≤ 0xEF then 3
  else if 0xF0 ≤ lead && lead ≤ 0xF4 then 4
  else 0

/-- The six payload bits of a continuation byte. -/
def payload (b : UInt8) : Nat := b.toNat % 64

/-- The last continuation of a character whose earlier bytes have the given value. -/
def closing (value : Nat) : List UInt8 → Char × List UInt8
  | b :: rest =>
    if isContinuation b then (Char.ofNat (value * 64 + payload b), rest)
    else (replacement, b :: rest)
  | [] => (replacement, [])

/-- The first character of a non-empty byte list and the bytes after it. -/
def decodeOne (lead : UInt8) (rest : List UInt8) : Char × List UInt8 :=
  match width lead, rest with
  | 1, rest => (Char.ofNat lead.toNat, rest)
  | 2, rest => closing (lead.toNat % 32) rest
  | 3, b :: rest =>
    if mayFollow lead b then closing (lead.toNat % 16 * 64 + payload b) rest
    else (replacement, b :: rest)
  | 4, b :: rest =>
    if mayFollow lead b then
      match rest with
      | c :: rest =>
        if isContinuation c then closing ((lead.toNat % 8 * 64 + payload b) * 64 + payload c) rest
        else (replacement, c :: rest)
      | [] => (replacement, [])
    else (replacement, b :: rest)
  | _, rest => (replacement, rest)

theorem closing_length_le (value : Nat) (bytes : List UInt8) :
    (closing value bytes).2.length ≤ bytes.length := by
  cases bytes with
  | nil => simp [closing]
  | cons b rest => simp only [closing]; split <;> simp

/-- Reading one character gives back no more bytes than follow its first. -/
theorem decodeOne_length_le (lead : UInt8) (rest : List UInt8) :
    (decodeOne lead rest).2.length ≤ rest.length := by
  unfold decodeOne
  split
  · simp
  · exact closing_length_le _ _
  · split
    · exact Nat.le_trans (closing_length_le _ _) (by simp)
    · simp
  · split
    · split
      · split
        · exact Nat.le_trans (closing_length_le _ _) (by simp; omega)
        · simp
      · simp
    · simp
  · simp

/-- The text a byte list stands for. -/
def decode : List UInt8 → List Char
  | [] => []
  | lead :: rest =>
    let next := decodeOne lead rest
    next.1 :: decode next.2
termination_by bytes => bytes.length
decreasing_by
  have := decodeOne_length_le lead rest
  simp only [List.length_cons]
  omega

end RangeIndex.Text.Utf8
