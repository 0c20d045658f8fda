/-
UTF-8. `encode` writes characters as bytes; `decode` reads them back and names the first byte that
is not UTF-8; `decodeLossy` puts U+FFFD for every maximal ill-formed stretch; `decodeMarked` also
skips one leading byte order mark. A stretch is as long as it can be a proper start of a
character, so a cut character counts once.
-/
import Maintainability.Text

namespace Maintainability.Utf8

/-- The bytes of one character. -/
def encodeChar (c : Char) : List UInt8 :=
  let n := c.toNat
  if n < 0x80 then [n.toUInt8]
  else if n < 0x800 then [(0xC0 + n / 64).toUInt8, (0x80 + n % 64).toUInt8]
  else if n < 0x10000 then
    [(0xE0 + n / 4096).toUInt8, (0x80 + n / 64 % 64).toUInt8, (0x80 + n % 64).toUInt8]
  else
    [(0xF0 + n / 262144).toUInt8, (0x80 + n / 4096 % 64).toUInt8, (0x80 + n / 64 % 64).toUInt8,
      (0x80 + n % 64).toUInt8]

/-- The bytes of a list of characters. -/
def encode (cs : List Char) : List UInt8 := cs.flatMap encodeChar

/-- Why a byte is not UTF-8. -/
inductive Fault where
  | startByte
  | continuation
  | truncated
  deriving DecidableEq, Repr

/-- The wording of a fault. -/
def Fault.message : Fault → String
  | .startByte => "invalid start byte"
  | .continuation => "invalid continuation byte"
  | .truncated => "unexpected end of data"

/-- What stands at the front of some bytes: a character of `width` bytes, or a fault over `width`
bytes. -/
inductive Front where
  | char (c : Char) (width : Nat)
  | fault (why : Fault) (width : Nat)
  deriving DecidableEq, Repr

/-- A continuation byte. -/
def isTail (b : UInt8) : Bool := 0x80 ≤ b && b ≤ 0xBF

/-- The least and the greatest second byte after a first byte of three or four. -/
def secondRange (b : UInt8) : UInt8 × UInt8 :=
  if b = 0xE0 then (0xA0, 0xBF)
  else if b = 0xED then (0x80, 0x9F)
  else if b = 0xF0 then (0x90, 0xBF)
  else if b = 0xF4 then (0x80, 0x8F)
  else (0x80, 0xBF)

/-- A second byte allowed after `b`. -/
def isSecond (b c : UInt8) : Bool := (secondRange b).1 ≤ c && c ≤ (secondRange b).2

/-- Reads the front of `b :: rest`. -/
def front (b : UInt8) (rest : List UInt8) : Front :=
  let payload (c : UInt8) : Nat := c.toNat % 64
  if b < 0x80 then .char (Char.ofNat b.toNat) 1
  else if b < 0xC2 then .fault .startByte 1
  else if b < 0xE0 then
    match rest with
    | [] => .fault .truncated 1
    | c :: _ =>
      if isTail c then .char (Char.ofNat (b.toNat % 32 * 64 + payload c)) 2
      else .fault .continuation 1
  else if b < 0xF0 then
    match rest with
    | [] => .fault .truncated 1
    | c :: rest =>
      if !isSecond b c then .fault .continuation 1
      else
        match rest with
        | [] => .fault .truncated 2
        | d :: _ =>
          if isTail d then
            .char (Char.ofNat (b.toNat % 16 * 4096 + payload c * 64 + payload d)) 3
          else .fault .continuation 2
  else if b < 0xF5 then
    match rest with
    | [] => .fault .truncated 1
    | c :: rest =>
      if !isSecond b c then .fault .continuation 1
      else
        match rest with
        | [] => .fault .truncated 2
        | d :: rest =>
          if !isTail d then .fault .continuation 2
          else
            match rest with
            | [] => .fault .truncated 3
            | e :: _ =>
              if isTail e then
                .char (Char.ofNat
                  (b.toNat % 8 * 262144 + payload c * 4096 + payload d * 64 + payload e)) 4
              else .fault .continuation 3
  else .fault .startByte 1

/-- A fault and the ill-formed stretch in which it was found. -/
structure Error where
  /-- What is wrong. -/
  why : Fault
  /-- The offset of the first byte of the stretch. -/
  start : Nat
  /-- The first byte of the stretch. -/
  found : UInt8
  /-- The number of bytes of the stretch. -/
  width : Nat
  deriving DecidableEq, Repr

/-- The text that would be shown for a failed decoding. -/
def Error.message (e : Error) : String :=
  if e.width = 1 then
    "'utf-8' codec can't decode byte 0x" ++ String.ofList (Nat.toDigits 16 e.found.toNat) ++
      " in position " ++ toString e.start ++ ": " ++ e.why.message
  else
    "'utf-8' codec can't decode bytes in position " ++ toString e.start ++ "-" ++
      toString (e.start + e.width - 1) ++ ": " ++ e.why.message

/-- Reads all of `bytes`, the first of which has offset `pos`. -/
def decodeFrom (pos : Nat) (bytes : List UInt8) : Except Error (List Char) :=
  match bytes with
  | [] => .ok []
  | b :: rest =>
    match front b rest with
    | .fault why w => .error ⟨why, pos, b, w⟩
    | .char c w =>
      match decodeFrom (pos + w) (rest.drop (w - 1)) with
      | .ok cs => .ok (c :: cs)
      | .error e => .error e
termination_by bytes.length
decreasing_by simp only [List.length_drop, List.length_cons]; omega

/-- Reads bytes as UTF-8. -/
def decode (bytes : List UInt8) : Except Error (List Char) := decodeFrom 0 bytes

/-- The byte order mark. -/
def mark : List UInt8 := [0xEF, 0xBB, 0xBF]

/-- Reads bytes as UTF-8, without one leading byte order mark; offsets count from behind it. -/
def decodeMarked (bytes : List UInt8) : Except Error (List Char) :=
  decode (if mark.isPrefixOf bytes then bytes.drop 3 else bytes)

/-- Reads bytes as UTF-8, with U+FFFD for every ill-formed stretch. -/
def decodeLossy (bytes : List UInt8) : List Char :=
  match bytes with
  | [] => []
  | b :: rest =>
    match front b rest with
    | .char c w => c :: decodeLossy (rest.drop (w - 1))
    | .fault _ w => '\uFFFD' :: decodeLossy (rest.drop (w - 1))
termination_by bytes.length
decreasing_by all_goals simp only [List.length_drop, List.length_cons]; omega

/-- The bytes of a text, or the first run of surrogates in it. -/
def encodeText (t : Text) : Except Text.Unencodable (List UInt8) :=
  match t.unencodable? with
  | some e => .error e
  | none => .ok (encode (t.filterMap CodePoint.toChar?))

end Maintainability.Utf8
