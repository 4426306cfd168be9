import TapeMachine.Text.CodePoint

/-!
# Encodings of a JSON text

A JSON text may come in UTF-8, UTF-16 or UTF-32. Which one it is shows in its byte order mark
or, without one, in the zero bytes among its first four: the first two characters of a JSON text
are ASCII. Surrogates that stand alone are tolerated.
-/

namespace TapeMachine.Text

/-- The order of the bytes of a code unit. -/
inductive ByteOrder where
  | bigEndian
  | littleEndian
deriving DecidableEq, Inhabited

/-- An encoding of Unicode text. -/
inductive Encoding where
  | utf8
  | utf16 (order : ByteOrder)
  | utf32 (order : ByteOrder)
deriving DecidableEq, Inhabited

/-- The encoding of a JSON text, and its bytes without the byte order mark. -/
def Encoding.detect (bytes : List UInt8) : Encoding × List UInt8 :=
  match bytes with
  | 0x00 :: 0x00 :: 0xFE :: 0xFF :: rest => (utf32 .bigEndian, rest)
  | 0xFF :: 0xFE :: 0x00 :: 0x00 :: rest => (utf32 .littleEndian, rest)
  | 0xFE :: 0xFF :: rest => (utf16 .bigEndian, rest)
  | 0xFF :: 0xFE :: rest => (utf16 .littleEndian, rest)
  | 0xEF :: 0xBB :: 0xBF :: rest => (utf8, rest)
  | a :: b :: c :: d :: _ =>
      if a = 0 then (if b = 0 then utf32 .bigEndian else utf16 .bigEndian, bytes)
      else if b = 0 then
        (if c = 0 ∧ d = 0 then utf32 .littleEndian else utf16 .littleEndian, bytes)
      else (utf8, bytes)
  | [a, b] =>
      if a = 0 then (utf16 .bigEndian, bytes)
      else if b = 0 then (utf16 .littleEndian, bytes)
      else (utf8, bytes)
  | _ => (utf8, bytes)

/-- The payload of a continuation byte. -/
def continuation? (b : UInt8) : Option Nat :=
  if 0x80 ≤ b ∧ b < 0xC0 then some (b.toNat - 0x80) else none

/-- The code point of one UTF-8 sequence, in the shortest form, and the bytes behind it. -/
def decodeUtf8Char? : List UInt8 → Option (Nat × List UInt8)
  | [] => none
  | lead :: rest =>
      if lead < 0x80 then some (lead.toNat, rest)
      else if 0xC2 ≤ lead ∧ lead < 0xE0 then
        match rest with
        | b :: rest => do
            let b ← continuation? b
            pure ((lead.toNat - 0xC0) * 0x40 + b, rest)
        | _ => none
      else if 0xE0 ≤ lead ∧ lead < 0xF0 then
        match rest with
        | b :: c :: rest => do
            let b ← continuation? b
            let c ← continuation? c
            let code := (lead.toNat - 0xE0) * 0x1000 + b * 0x40 + c
            if 0x800 ≤ code then pure (code, rest) else none
        | _ => none
      else if 0xF0 ≤ lead ∧ lead < 0xF5 then
        match rest with
        | b :: c :: d :: rest => do
            let b ← continuation? b
            let c ← continuation? c
            let d ← continuation? d
            let code := (lead.toNat - 0xF0) * 0x40000 + b * 0x1000 + c * 0x40 + d
            if 0x10000 ≤ code ∧ code < 0x110000 then pure (code, rest) else none
        | _ => none
      else none

/-- The code points of UTF-8 bytes. The fuel bounds their number. -/
def decodeUtf8From : Nat → List CodePoint → List UInt8 → Option (List CodePoint)
  | _, out, [] => some out.reverse
  | 0, _, _ => none
  | fuel + 1, out, bytes =>
      match decodeUtf8Char? bytes with
      | none => none
      | some (code, rest) => decodeUtf8From fuel (.ofCode code :: out) rest

/-- The value of two bytes. -/
def unit16 (order : ByteOrder) (a b : UInt8) : Nat :=
  match order with
  | .bigEndian => a.toNat * 256 + b.toNat
  | .littleEndian => b.toNat * 256 + a.toNat

/-- The 16-bit code units of bytes, if they come in pairs. -/
def units16? (order : ByteOrder) : List UInt8 → Option (List Nat)
  | [] => some []
  | a :: b :: rest => (units16? order rest).map (unit16 order a b :: ·)
  | [_] => none

/-- The code points of 16-bit code units: surrogate pairs are joined. -/
def ofUnits16 : List Nat → List CodePoint
  | [] => []
  | [unit] => [.ofCode unit]
  | high :: low :: rest =>
      if isHighSurrogate high && isLowSurrogate low then
        .char (joinSurrogates high low) :: ofUnits16 rest
      else
        .ofCode high :: ofUnits16 (low :: rest)

/-- The code points of 32-bit code units in either byte order. -/
def decodeUtf32 (order : ByteOrder) : List UInt8 → Option (List CodePoint)
  | [] => some []
  | a :: b :: c :: d :: rest =>
      let code :=
        match order with
        | .bigEndian => unit16 order a b * 65536 + unit16 order c d
        | .littleEndian => unit16 order c d * 65536 + unit16 order a b
      if code < 0x110000 then (decodeUtf32 order rest).map (.ofCode code :: ·) else none
  | _ => none

/-- The code points of bytes in a given encoding, `none` if they do not follow it. -/
def Encoding.decode? (encoding : Encoding) (bytes : List UInt8) : Option (List CodePoint) :=
  match encoding with
  | utf8 => decodeUtf8From bytes.length [] bytes
  | utf16 order => (units16? order bytes).map ofUnits16
  | utf32 order => decodeUtf32 order bytes

/-- The code points of a JSON text. -/
def decodeJsonText? (bytes : List UInt8) : Option (List CodePoint) :=
  let (encoding, content) := Encoding.detect bytes
  encoding.decode? content

/-- The UTF-8 bytes of a text. -/
def utf8Bytes (text : String) : List UInt8 :=
  text.toUTF8.toList

end TapeMachine.Text
