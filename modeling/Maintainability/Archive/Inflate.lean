/-
Inflating raw deflate streams. A stream that ends too early gives what could be inflated until then;
a stream that no compressor writes is damaged.
-/
namespace Maintainability.Inflate

/-- Why inflating stops before the end of a stream. -/
inductive Stop where
  /-- There is no more input. -/
  | exhausted
  /-- The stream breaks a rule of the format. -/
  | damaged (why : String)
  deriving DecidableEq, Repr

/-- The input: bits that were taken from bytes and not used yet, the next one lowest, and the
bytes. -/
structure Bits where
  /-- The unused bits. -/
  window : Nat := 0
  /-- Their number. -/
  count : Nat := 0
  /-- The bytes not looked at. -/
  bytes : List UInt8
  deriving Repr

namespace Bits

/-- Makes sure of `n` bits. -/
def fill (n : Nat) (b : Bits) : Option Bits :=
  if n ≤ b.count then some b
  else
    match b with
    | ⟨_, _, []⟩ => none
    | ⟨window, count, x :: rest⟩ => fill n ⟨window + x.toNat * Nat.pow 2 count, count + 8, rest⟩
termination_by b.bytes.length

/-- The next `n` bits as a number, the first one lowest. -/
def take (n : Nat) (b : Bits) : Except Stop (Nat × Bits) :=
  match b.fill n with
  | none => .error .exhausted
  | some b => .ok (b.window % Nat.pow 2 n, ⟨b.window / Nat.pow 2 n, b.count - n, b.bytes⟩)

/-- Drops the bits up to the next byte. -/
def align (b : Bits) : Bits :=
  let k := b.count % 8
  ⟨b.window / Nat.pow 2 k, b.count - k, b.bytes⟩

end Bits

/-! ## Codes -/

/-- A canonical prefix code. -/
structure Code where
  /-- How many code words there are of each length from 1 on. -/
  counts : List Nat
  /-- The symbols, by length and then by value. -/
  symbols : Array Nat
  deriving Repr

/-- The code with the given lengths of code words; 0 means no code word. -/
def Code.ofLengths (lengths : List Nat) : Code :=
  let longest := lengths.foldl max 0
  let ofLength (n : Nat) : List Nat :=
    (lengths.zipIdx.filter fun (l, _) => l == n).map (·.2)
  let groups := (List.range longest).map fun i => ofLength (i + 1)
  ⟨groups.map List.length, groups.flatten.toArray⟩

/-- Code words that are left over after all lengths; negative if there are too many code words. -/
def Code.spare (c : Code) : Int := c.counts.foldl (fun (left : Int) (n : Nat) => 2 * left - n) 1

/-- A code that leaves nothing over, or one that is allowed to: no code word, or a single one of
length 1 where `loose`. -/
def Code.isUsable (loose : Bool) (c : Code) : Bool :=
  c.spare == 0 || c.counts.isEmpty || (loose && c.counts == [1])

/-- Looks for a code word of the next length. -/
def Code.search (c : Code) : List Nat → Nat → Nat → Nat → Bits → Except Stop (Option Nat × Bits)
  | [], _, _, _, b => .ok (none, b)
  | n :: more, word, first, index, b => do
    let (bit, b) ← b.take 1
    let word := 2 * word + bit
    if word < first + n then
      pure (c.symbols[index + (word - first)]?, b)
    else c.search more word (2 * (first + n)) (index + n) b

/-- The symbol of the next code word; `none` if there is no such word. -/
def Code.next (c : Code) (b : Bits) : Except Stop (Option Nat × Bits) :=
  c.search (if c.counts.isEmpty then [0] else c.counts) 0 0 0 b

/-- The code of literals and lengths of a block without a table. -/
def fixedLiterals : Code :=
  .ofLengths (List.replicate 144 8 ++ List.replicate 112 9 ++ List.replicate 24 7 ++
    List.replicate 8 8)

/-- The code of distances of a block without a table. -/
def fixedDistances : Code := .ofLengths (List.replicate 30 5)

/-! ## Tables -/

/-- The order in which the lengths of the code of lengths are written. -/
def tableOrder : List Nat :=
  [16, 17, 18, 0, 8, 7, 9, 6, 10, 5, 11, 4, 12, 3, 13, 2, 14, 1, 15]

/-- So many numbers of three bits. -/
def triples : Nat → Bits → Except Stop (List Nat × Bits)
  | 0, b => .ok ([], b)
  | n + 1, b => do
    let (x, b) ← b.take 3
    let (xs, b) ← triples n b
    pure (x :: xs, b)

/-- The lengths of the code of lengths, by symbol. -/
def lengthLengths (written : List Nat) : List Nat :=
  let pairs := tableOrder.zip written
  (List.range 19).map fun s => ((pairs.find? (·.1 == s)).map (·.2)).getD 0

/-- The lengths of a table, the last one first, up to `total` of them. -/
def tableLengths (c : Code) (total : Nat) :
    Nat → List Nat → Bits → Except Stop (List Nat × Bits)
  | 0, acc, b => .ok (acc, b)
  | fuel + 1, acc, b =>
    if total ≤ acc.length then .ok (acc, b)
    else do
      let (symbol, b) ← c.next b
      let symbol := symbol.getD 0
      if symbol < 16 then tableLengths c total fuel (symbol :: acc) b
      else
        let (extra, base) := if symbol = 16 then (2, 3) else if symbol = 17 then (3, 3) else (7, 11)
        let (more, b) ← b.take extra
        let copies := base + more
        let value? := if symbol = 16 then acc.head? else some 0
        match value? with
        | none => .error (.damaged "invalid bit length repeat")
        | some value =>
          if total < acc.length + copies then .error (.damaged "invalid bit length repeat")
          else tableLengths c total fuel (List.replicate copies value ++ acc) b

/-- The two codes of a block with a table. -/
def table (b : Bits) : Except Stop (Code × Code × Bits) := do
  let (header, b) ← b.take 14
  let literals := header % 32 + 257
  let distances := header / 32 % 32 + 1
  let written := header / 1024 % 16 + 4
  if 286 < literals ∨ 30 < distances then
    .error (.damaged "too many length or distance symbols")
  else
    let (triples, b) ← triples written b
    let lengthCode := Code.ofLengths (lengthLengths triples)
    if !lengthCode.isUsable false then .error (.damaged "invalid code lengths set")
    else
      let total := literals + distances
      let (reversed, b) ← tableLengths lengthCode total total [] b
      let lengths := reversed.reverse
      if lengths[256]?.getD 0 = 0 then .error (.damaged "invalid code -- missing end-of-block")
      else
        let literalCode := Code.ofLengths (lengths.take literals)
        let distanceCode := Code.ofLengths (lengths.drop literals)
        if !literalCode.isUsable true then .error (.damaged "invalid literal/lengths set")
        else if !distanceCode.isUsable true then .error (.damaged "invalid distances set")
        else pure (literalCode, distanceCode, b)

/-! ## Blocks -/

/-- The number of extra bits and the least value of a length or distance symbol: steps double
after every `2 ^ perDoubling` symbols. -/
def scale (perDoubling first symbol : Nat) : Nat × Nat :=
  let n := Nat.pow 2 perDoubling
  let group := symbol / n
  if group = 0 then (0, first + symbol)
  else (group - 1, first + (n + symbol % n) * Nat.pow 2 (group - 1))

/-- The extra bits and the least value of a length symbol. -/
def lengthScale (symbol : Nat) : Nat × Nat :=
  if symbol = 285 then (0, 258) else scale 2 3 (symbol - 257)

/-- The extra bits and the least value of a distance symbol. -/
def distanceScale (symbol : Nat) : Nat × Nat := scale 1 1 symbol

/-- Repeats bytes from so far back. -/
def copyBack (distance : Nat) : Nat → Array UInt8 → Array UInt8
  | 0, out => out
  | n + 1, out => copyBack distance n (out.push (out.getD (out.size - distance) 0))

/-- The output and how it ended: with the rest of the input, or by a stop. -/
abbrev Progress := Array UInt8 × Except Stop Bits

/-- One literal, one match or the end of the block; `none` at the end. -/
def item (literals distances : Code) (out : Array UInt8) (b : Bits) :
    Except Stop (Option (Array UInt8) × Bits) := do
  let (symbol, b) ← literals.next b
  match symbol with
  | none => .error (.damaged "invalid literal/length code")
  | some s =>
    if s < 256 then pure (some (out.push s.toUInt8), b)
    else if s = 256 then pure (none, b)
    else if 285 < s then .error (.damaged "invalid literal/length code")
    else
      let (extra, base) := lengthScale s
      let (more, b) ← b.take extra
      let length := base + more
      let (symbol, b) ← distances.next b
      match symbol with
      | none => .error (.damaged "invalid distance code")
      | some d =>
        let (extra, base) := distanceScale d
        let (more, b) ← b.take extra
        let distance := base + more
        if out.size < distance then .error (.damaged "invalid distance too far back")
        else pure (some (copyBack distance length out), b)

/-- The items of a block. -/
def items (literals distances : Code) : Nat → Array UInt8 → Bits → Progress
  | 0, out, _ => (out, .error .exhausted)
  | fuel + 1, out, b =>
    match item literals distances out b with
    | .error stop => (out, .error stop)
    | .ok (none, b) => (out, .ok b)
    | .ok (some out, b) => items literals distances fuel out b

/-- A block of bytes that are not compressed. -/
def stored (out : Array UInt8) (b : Bits) : Progress :=
  match b.align.take 32 with
  | .error stop => (out, .error stop)
  | .ok (header, b) =>
    let length := header % 65536
    if length + header / 65536 ≠ 65535 then
      (out, .error (.damaged "invalid stored block lengths"))
    else
      -- whole bytes that are still in the window come first
      let waiting := (List.range (b.count / 8)).map fun i =>
        (b.window / Nat.pow 256 i % 256).toUInt8
      let all := waiting ++ b.bytes
      let body := all.take length
      (out ++ body.toArray,
        if body.length < length then .error .exhausted else .ok ⟨0, 0, all.drop length⟩)

/-- One block after its header. -/
def block (kind fuel : Nat) (out : Array UInt8) (b : Bits) : Progress :=
  if kind = 0 then stored out b
  else if kind = 1 then items fixedLiterals fixedDistances fuel out b
  else if kind = 2 then
    match table b with
    | .error stop => (out, .error stop)
    | .ok (literals, distances, b) => items literals distances fuel out b
  else (out, .error (.damaged "invalid block type"))

/-- Blocks up to the last one. -/
def blocks (fuel : Nat) : Nat → Array UInt8 → Bits → Progress
  | 0, out, _ => (out, .error .exhausted)
  | more + 1, out, b =>
    match b.take 3 with
    | .error stop => (out, .error stop)
    | .ok (header, b) =>
      match block (header / 2) fuel out b with
      | (out, .error stop) => (out, .error stop)
      | (out, .ok b) => if header % 2 = 1 then (out, .ok b) else blocks fuel more out b

/-- Inflates a stream: all that can be had of it, or what is wrong with it. -/
def inflate (bytes : List UInt8) : Except String (List UInt8) :=
  let fuel := 8 * bytes.length + 1
  match blocks fuel fuel #[] ⟨0, 0, bytes⟩ with
  | (_, .error (.damaged why)) => .error why
  | (out, _) => .ok out.toList

end Maintainability.Inflate
