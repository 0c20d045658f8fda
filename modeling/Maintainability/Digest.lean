/-
SHA-1: a digest of 160 bits over blocks of sixteen words, written as forty hexadecimal digits.
-/
namespace Maintainability.Digest

/-- The five words carried from block to block. -/
structure State where
  a : UInt32
  b : UInt32
  c : UInt32
  d : UInt32
  e : UInt32

/-- The state before the first block. -/
def State.initial : State := ⟨0x67452301, 0xEFCDAB89, 0x98BADCFE, 0x10325476, 0xC3D2E1F0⟩

/-- Rotates a word to the left. -/
def rotate (x : UInt32) (n : UInt32) : UInt32 := (x <<< n) ||| (x >>> (32 - n))

/-- The message followed by a one bit, zeros up to a multiple of 64 bytes and its length in bits. -/
def pad (message : List UInt8) : List UInt8 :=
  let n := message.length
  let zeros := (119 - n % 64) % 64
  let bits := 8 * n
  message ++ 0x80 :: List.replicate zeros 0 ++
    [(bits / Nat.pow 2 56).toUInt8, (bits / Nat.pow 2 48).toUInt8, (bits / Nat.pow 2 40).toUInt8,
      (bits / Nat.pow 2 32).toUInt8, (bits / Nat.pow 2 24).toUInt8, (bits / Nat.pow 2 16).toUInt8,
      (bits / Nat.pow 2 8).toUInt8, bits.toUInt8]

/-- Bytes as words, the most significant byte first. -/
def words : List UInt8 → List UInt32
  | a :: b :: c :: d :: rest =>
    ((a.toUInt32 <<< 24) ||| (b.toUInt32 <<< 16) ||| (c.toUInt32 <<< 8) ||| d.toUInt32) ::
      words rest
  | _ => []

/-- Sixteen words extended to eighty. -/
def schedule (block : List UInt32) : Array UInt32 :=
  (List.range 64).foldl
    (fun w i =>
      w.push (rotate
        (w.getD (i + 13) 0 ^^^ w.getD (i + 8) 0 ^^^ w.getD (i + 2) 0 ^^^ w.getD i 0) 1))
    block.toArray

/-- One round. -/
def round (w : Array UInt32) (s : State) (i : Nat) : State :=
  let (f, k) : UInt32 × UInt32 :=
    if i < 20 then ((s.b &&& s.c) ||| (~~~s.b &&& s.d), 0x5A827999)
    else if i < 40 then (s.b ^^^ s.c ^^^ s.d, 0x6ED9EBA1)
    else if i < 60 then ((s.b &&& s.c) ||| (s.b &&& s.d) ||| (s.c &&& s.d), 0x8F1BBCDC)
    else (s.b ^^^ s.c ^^^ s.d, 0xCA62C1D6)
  ⟨rotate s.a 5 + f + s.e + k + w.getD i 0, s.a, rotate s.b 30, s.c, s.d⟩

/-- Eighty rounds over one block, added to the state before it. -/
def compress (s : State) (block : List UInt32) : State :=
  let w := schedule block
  let t := (List.range 80).foldl (round w) s
  ⟨s.a + t.a, s.b + t.b, s.c + t.c, s.d + t.d, s.e + t.e⟩

/-- Folds the blocks of sixteen words into the state. -/
def fold (s : State) (ws : List UInt32) : State :=
  match ws with
  | [] => s
  | w :: rest => fold (compress s (w :: rest.take 15)) (rest.drop 15)
termination_by ws.length
decreasing_by simp only [List.length_drop, List.length_cons]; omega

/-- The eight hexadecimal digits of a word. -/
def hexWord (w : UInt32) : List Char :=
  (List.range 8).map fun i => Nat.digitChar (w.toNat / Nat.pow 16 (7 - i) % 16)

/-- The digest of a message, in hexadecimal. -/
def sha1 (message : List UInt8) : String :=
  let s := fold .initial (words (pad message))
  String.ofList (hexWord s.a ++ hexWord s.b ++ hexWord s.c ++ hexWord s.d ++ hexWord s.e)

end Maintainability.Digest
