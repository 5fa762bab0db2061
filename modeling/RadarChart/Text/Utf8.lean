/-!
# Reading UTF-8

Bytes become characters one at a time. A byte that cannot stand where it
stands ends the reading with a `Utf8Fault`: the bytes of the character that
was begun, where they start, and what is wrong with them. Overlong forms,
surrogates and codes above `10FFFF` are refused at the first byte that rules
them out, through the range that the first byte of a character leaves to the
second one.
-/

namespace RadarChart.Text

/-- What can be wrong with a sequence of bytes. -/
inductive Utf8Reason where
  /-- no character starts with this byte -/
  | invalidStart
  /-- the next byte cannot continue the character -/
  | invalidContinuation
  /-- the bytes end inside a character -/
  | unexpectedEnd
deriving DecidableEq, Repr

def Utf8Reason.message : Utf8Reason → String
  | .invalidStart => "invalid start byte"
  | .invalidContinuation => "invalid continuation byte"
  | .unexpectedEnd => "unexpected end of data"

/-- The bytes of the character that could not be read, and the position of the
first one, counted from 0. -/
structure Utf8Fault where
  position : Nat
  bytes : List UInt8
  reason : Utf8Reason
deriving DecidableEq, Repr

/-- A number below 256 in two hexadecimal digits. -/
def hexByte (n : Nat) : String :=
  String.ofList [(n / 16).digitChar, (n % 16).digitChar]

def Utf8Fault.message (f : Utf8Fault) : String :=
  let subject :=
    match f.bytes with
    | [b] => "byte 0x" ++ hexByte b.toNat ++ " in position " ++ toString f.position
    | bs => "bytes in position " ++ toString f.position ++ "-"
        ++ toString (f.position + bs.length - 1)
  "'utf-8' codec can't decode " ++ subject ++ ": " ++ f.reason.message

/-- A character that has been begun: the bytes so far, the code so far, how
many bytes it still needs, and the range of the next one. -/
structure PartialChar where
  bytes : List UInt8
  code : Nat
  owed : Nat
  low : Nat
  high : Nat

/-- What a byte above `7F` begins. -/
def PartialChar.ofLead? (b : UInt8) : Option PartialChar :=
  let n := b.toNat
  if 0xC2 ≤ n && n ≤ 0xDF then some ⟨[b], n - 0xC0, 1, 0x80, 0xBF⟩
  else if n == 0xE0 then some ⟨[b], 0, 2, 0xA0, 0xBF⟩
  else if n == 0xED then some ⟨[b], 0xD, 2, 0x80, 0x9F⟩
  else if 0xE1 ≤ n && n ≤ 0xEF then some ⟨[b], n - 0xE0, 2, 0x80, 0xBF⟩
  else if n == 0xF0 then some ⟨[b], 0, 3, 0x90, 0xBF⟩
  else if 0xF1 ≤ n && n ≤ 0xF3 then some ⟨[b], n - 0xF0, 3, 0x80, 0xBF⟩
  else if n == 0xF4 then some ⟨[b], 4, 3, 0x80, 0x8F⟩
  else none

/-- Reads on from `position`, with a character begun or not. -/
def decodeFrom (position : Nat) : Option PartialChar → List UInt8 → Except Utf8Fault (List Char)
  | none, [] => .ok []
  | some p, [] => .error ⟨position - p.bytes.length, p.bytes, .unexpectedEnd⟩
  | none, b :: bs =>
    if b.toNat < 0x80 then
      (decodeFrom (position + 1) none bs).map (Char.ofNat b.toNat :: ·)
    else
      match PartialChar.ofLead? b with
      | none => .error ⟨position, [b], .invalidStart⟩
      | some p => decodeFrom (position + 1) (some p) bs
  | some p, b :: bs =>
    if p.low ≤ b.toNat && b.toNat ≤ p.high then
      let code := p.code * 64 + (b.toNat - 0x80)
      if p.owed ≤ 1 then
        (decodeFrom (position + 1) none bs).map (Char.ofNat code :: ·)
      else
        decodeFrom (position + 1) (some ⟨p.bytes ++ [b], code, p.owed - 1, 0x80, 0xBF⟩) bs
    else
      .error ⟨position - p.bytes.length, p.bytes, .invalidContinuation⟩

/-- The text that the bytes encode. -/
def decodeUtf8 (bytes : List UInt8) : Except Utf8Fault (List Char) :=
  decodeFrom 0 none bytes

end RadarChart.Text
