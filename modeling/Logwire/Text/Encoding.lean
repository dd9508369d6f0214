import Logwire.Text.Quoted

/-!
# Logwire.Text.Encoding

The text of a body that arrives as octets.

The encoding is told from the beginning: by a byte order mark, or by the
places of the zeros among the first four octets, an ASCII character coming
first; it is UTF-8 otherwise.  A decoder reads one character at a time.  A fault names
the encoding and the octets from where no character can be read: the longest
beginning of one in UTF-8, the whole unit in the other encodings.

A surrogate without its partner is read as the replacement character.
-/

namespace Logwire.Text

/-- The order of the octets in a unit. -/
inductive ByteOrder where
  | big
  | little
  deriving DecidableEq, Repr

/-- The encodings that are told apart. -/
inductive Encoding where
  | utf8
  | utf16 (order : ByteOrder)
  | utf32 (order : ByteOrder)
  deriving DecidableEq, Repr

/-- The name of an encoding in messages. -/
def Encoding.name : Encoding → String
  | .utf8 => "utf-8"
  | .utf16 .big => "utf-16-be"
  | .utf16 .little => "utf-16-le"
  | .utf32 .big => "utf-32-be"
  | .utf32 .little => "utf-32-le"

/-! ## Faults -/

/-- Why no character can be read. -/
inductive DecodeCause where
  | startByte
  | continuation
  | endOfData
  | truncated
  | codePoint
  deriving DecidableEq, Repr

def DecodeCause.message : DecodeCause → String
  | .startByte => "invalid start byte"
  | .continuation => "invalid continuation byte"
  | .endOfData => "unexpected end of data"
  | .truncated => "truncated data"
  | .codePoint => "code point not in range(0x110000)"

/-- A fault covers `extra` octets after the one at `position`, which is `first`. -/
structure DecodeFault where
  encoding : Encoding
  cause : DecodeCause
  first : UInt8
  position : Nat
  extra : Nat
  deriving Repr

def DecodeFault.message (e : DecodeFault) : String :=
  let place :=
    if e.extra = 0 then
      "byte 0x" ++ String.ofList (hexFixed 2 e.first.toNat) ++ " in position "
        ++ toString e.position
    else
      "bytes in position " ++ toString e.position ++ "-" ++ toString (e.position + e.extra)
  "'" ++ e.encoding.name ++ "' codec can't decode " ++ place ++ ": " ++ e.cause.message

/-! ## One character -/

/-- The outcome of reading a character: the cause of the failure, or the character; with it the
number of octets involved after the first. -/
abbrev Step := Except (DecodeCause × Nat) (Char × Nat)

def isSurrogate (n : Nat) : Bool := 0xd800 ≤ n && n ≤ 0xdfff

/-- The character of a code point that is in range. -/
def codePointChar (n : Nat) : Char := if isSurrogate n then '\ufffd' else Char.ofNat n

/-- The octets after a first octet: how many, and the bounds of the next one. -/
def follow? (first : Nat) : Option (Nat × Nat × Nat) :=
  if 0xc2 ≤ first ∧ first ≤ 0xdf then some (1, 0x80, 0xbf)
  else if first = 0xe0 then some (2, 0xa0, 0xbf)
  else if first = 0xed then some (2, 0x80, 0x9f)
  else if 0xe1 ≤ first ∧ first ≤ 0xef then some (2, 0x80, 0xbf)
  else if first = 0xf0 then some (3, 0x90, 0xbf)
  else if 0xf1 ≤ first ∧ first ≤ 0xf3 then some (3, 0x80, 0xbf)
  else if first = 0xf4 then some (3, 0x80, 0x8f)
  else none

/-- Reads `count` continuation octets, the next one within bounds of its own. -/
def continuation (count low high value used : Nat) (s : List UInt8) :
    Except (DecodeCause × Nat) (Nat × Nat) :=
  match count, s with
  | 0, _ => .ok (value, used)
  | _ + 1, [] => .error (.endOfData, used)
  | count + 1, b :: r =>
    if low ≤ b.toNat ∧ b.toNat ≤ high then
      continuation count 0x80 0xbf (value * 64 + b.toNat % 64) (used + 1) r
    else .error (.continuation, used)

/-- A surrogate in the form of three octets. -/
def surrogateAhead (first : UInt8) (s : List UInt8) : Bool :=
  match s with
  | b :: c :: _ =>
    first.toNat = 0xed && 0xa0 ≤ b.toNat && b.toNat ≤ 0xbf && 0x80 ≤ c.toNat && c.toNat ≤ 0xbf
  | _ => false

def stepUtf8 (first : UInt8) (s : List UInt8) : Step :=
  if first.toNat < 0x80 then .ok (Char.ofNat first.toNat, 0)
  else if surrogateAhead first s then .ok ('\ufffd', 2)
  else
    match follow? first.toNat with
    | none => .error (.startByte, 0)
    | some (count, low, high) =>
      match continuation count low high (first.toNat % 1 <<< (6 - count)) 0 s with
      | .error e => .error e
      | .ok (value, used) => .ok (Char.ofNat value, used)

/-- The number of two octets. -/
def pair (order : ByteOrder) (a b : UInt8) : Nat :=
  match order with
  | .big => a.toNat * 256 + b.toNat
  | .little => b.toNat * 256 + a.toNat

def stepUtf16 (order : ByteOrder) (first : UInt8) (s : List UInt8) : Step :=
  match s with
  | [] => .error (.truncated, 0)
  | b :: r =>
    let high := pair order first b
    match r with
    | c :: d :: _ =>
      let low := pair order c d
      if 0xd800 ≤ high ∧ high ≤ 0xdbff ∧ 0xdc00 ≤ low ∧ low ≤ 0xdfff then
        .ok (Char.ofNat (0x10000 + (high - 0xd800) * 0x400 + (low - 0xdc00)), 3)
      else .ok (codePointChar high, 1)
    | _ => .ok (codePointChar high, 1)

def stepUtf32 (order : ByteOrder) (first : UInt8) (s : List UInt8) : Step :=
  match s with
  | b :: c :: d :: _ =>
    let n :=
      match order with
      | .big => pair .big first b * 65536 + pair .big c d
      | .little => pair .little c d * 65536 + pair .little first b
    if n < 0x110000 then .ok (codePointChar n, 3) else .error (.codePoint, 3)
  | _ => .error (.truncated, s.length)

def step : Encoding → UInt8 → List UInt8 → Step
  | .utf8 => stepUtf8
  | .utf16 order => stepUtf16 order
  | .utf32 order => stepUtf32 order

/-! ## Texts -/

/-- The characters of octets of which the first is at `position`. -/
def decodeFrom (encoding : Encoding) (position : Nat) (s : List UInt8) :
    Except DecodeFault (List Char) :=
  match s with
  | [] => .ok []
  | first :: r =>
    match step encoding first r with
    | .error (cause, extra) => .error ⟨encoding, cause, first, position, extra⟩
    | .ok (c, extra) =>
      match decodeFrom encoding (position + 1 + extra) (r.drop extra) with
      | .error e => .error e
      | .ok cs => .ok (c :: cs)
  termination_by s.length
  decreasing_by
    simp only [List.length_drop, List.length_cons]
    omega

/-- The encoding of octets without a byte order mark. -/
def guess (s : List UInt8) : Encoding :=
  match s with
  | a :: b :: c :: d :: _ =>
    if a = 0 then (if b = 0 then .utf32 .big else .utf16 .big)
    else if b = 0 then (if c = 0 ∧ d = 0 then .utf32 .little else .utf16 .little)
    else .utf8
  | [a, b] => if a = 0 then .utf16 .big else if b = 0 then .utf16 .little else .utf8
  | _ => .utf8

/-- The text of a body.  Positions count the byte order mark in UTF-16 and UTF-32 only. -/
def decode (s : List UInt8) : Except DecodeFault (List Char) :=
  match s with
  | 0x00 :: 0x00 :: 0xfe :: 0xff :: r => decodeFrom (.utf32 .big) 4 r
  | 0xff :: 0xfe :: 0x00 :: 0x00 :: r => decodeFrom (.utf32 .little) 4 r
  | 0xfe :: 0xff :: r => decodeFrom (.utf16 .big) 2 r
  | 0xff :: 0xfe :: r => decodeFrom (.utf16 .little) 2 r
  | 0xef :: 0xbb :: 0xbf :: r => decodeFrom .utf8 0 r
  | _ => decodeFrom (guess s) 0 s

end Logwire.Text
