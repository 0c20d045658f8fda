/-
Zip archives. The directory at the end of the file lists the members; the header in front of each
member must repeat its name. Sizes and offsets that do not fit into 32 bits stand in extra fields.
Data in front of the archive and a comment behind it are tolerated.

A content is stored or deflated; what else a build can decode is up to its `Codecs`.
-/
import Maintainability.Archive
import Maintainability.Archive.Checksum
import Maintainability.Archive.Inflate
import Maintainability.Text.Quoted
import Maintainability.Text.Utf8

namespace Maintainability.Zip

open Archive (Damage Member)

/-! ## Numbers and names -/

/-- The number in so many bytes, the first one lowest. -/
def number (data : Array UInt8) (start width : Nat) : Nat :=
  (List.range width).foldr (fun i n => 256 * n + (data.getD (start + i) 0).toNat) 0

/-- The bytes from `start` on, `length` of them or as many as there are. -/
def part (data : Array UInt8) (start length : Nat) : List UInt8 :=
  (data.extract start (start + length)).toList

/-- The characters of the upper half of code page 437. -/
def upperHalf : List Char :=
  ("ÇüéâäàåçêëèïîìÄÅÉæÆôöòûùÿÖÜ¢£¥₧ƒ" ++
    "áíóúñÑªº¿⌐¬½¼¡«»░▒▓│┤╡╢╖╕╣║╗╝╜╛┐" ++
    "└┴┬├─┼╞╟╚╔╩╦╠═╬╧╨╤╥╙╘╒╓╫╪┘┌█▄▌▐▀" ++
    "αßΓπΣσµτΦΘΩδ∞φε∩≡±≥≤⌠⌡÷≈°∙·√ⁿ²■\u00A0").toList

/-- The character of a byte in code page 437. -/
def pageChar (b : UInt8) : Char :=
  if b < 128 then Char.ofNat b.toNat else upperHalf.getD (b.toNat - 128) '?'

/-- The flag for names in UTF-8. -/
def isUnicode (flags : Nat) : Bool := flags / 2048 % 2 == 1

/-- A name from its bytes. -/
def decodeName (flags : Nat) (bytes : List UInt8) : Except Damage (List Char) :=
  if isUnicode flags then
    match Utf8.decode bytes with
    | .ok cs => .ok cs
    | .error e => .error (.beyond ⟨.decoding, e.message⟩)
  else .ok (bytes.map pageChar)

/-! ## The end record -/

/-- What the end record says about the directory. -/
structure EndRecord where
  /-- The size of the directory. -/
  size : Nat
  /-- The offset of the directory, from the start of the archive. -/
  offset : Nat
  /-- The place of the record itself. -/
  location : Nat
  /-- Records for large archives stand in front of it. -/
  isLarge : Bool
  deriving Repr

/-- The size of the end record. -/
def endSize : Nat := 22

/-- The size of the locator of the end record for large archives. -/
def locatorSize : Nat := 20

/-- The size of the end record for large archives. -/
def largeEndSize : Nat := 56

/-- Four bytes that mark a record. -/
def marked (data : Array UInt8) (start : Nat) (c d : UInt8) : Bool :=
  part data start 4 == [0x50, 0x4B, c, d]

/-- The last place at or before `start`, but not before `least`, with the mark of the end
record. -/
def lastEnd? (data : Array UInt8) (least : Nat) : Nat → Option Nat
  | 0 => if least = 0 ∧ marked data 0 5 6 then some 0 else none
  | n + 1 =>
    if n + 1 < least then none
    else if marked data (n + 1) 5 6 then some (n + 1)
    else lastEnd? data least n

/-- The place of the end record: the end of the file if no comment follows, else the last mark
that leaves room for a comment. -/
def endLocation? (data : Array UInt8) : Option Nat :=
  if data.size < endSize then none
  else
    let last := data.size - endSize
    if marked data last 5 6 ∧ number data (last + 20) 2 = 0 then some last
    else
      match lastEnd? data (data.size - 65536 - endSize) (data.size - 4) with
      | some n => if n + endSize ≤ data.size then some n else none
      | none => none

/-- The end record, completed from the record for large archives if there is one. -/
def endRecord (data : Array UInt8) : Except Damage EndRecord :=
  match endLocation? data with
  | none => .error (.broken "File is not a zip file")
  | some n =>
    let plain : EndRecord := ⟨number data (n + 12) 4, number data (n + 16) 4, n, false⟩
    if ¬ marked data (n - locatorSize) 6 7 then .ok plain
    else if number data (n - locatorSize + 4) 4 ≠ 0 ∨ 1 < number data (n - locatorSize + 16) 4 then
      .error (.broken "zipfiles that span multiple disks are not supported")
    else
      let large := n - locatorSize - largeEndSize
      if marked data large 6 6 then
        .ok ⟨number data (large + 40) 8, number data (large + 48) 8, n, true⟩
      else .ok plain

/-! ## The directory -/

/-- An entry of the directory. -/
structure Entry where
  /-- The whole name. -/
  fullName : List Char
  /-- The flags. -/
  flags : Nat
  /-- How the content is compressed. -/
  method : Nat
  /-- The checksum of the content. -/
  checksum : Nat
  /-- The size of the compressed content. -/
  packed : Nat
  /-- The size of the content. -/
  size : Nat
  /-- The place of the header. -/
  header : Int
  /-- The attributes of the file. -/
  attributes : Nat
  deriving Repr, Inhabited

/-- The name of an entry: nothing counts from the first NUL on. -/
def Entry.name (e : Entry) : List Char := e.fullName.takeWhile (· ≠ '\x00')

/-- The size of an entry of the directory without what follows it. -/
def entrySize : Nat := 46

/-- A number of eight bytes in front, and what follows it. -/
def large? (field : String) (data : List UInt8) : Except Damage (Nat × List UInt8) :=
  if data.length < 8 then
    .error (.broken ("Corrupt zip64 extra field. " ++ field ++ " not found."))
  else .ok (number data.toArray 0 8, data.drop 8)

/-- Completes an entry from an extra field for large archives. -/
def Entry.enlarge (e : Entry) (data : List UInt8) : Except Damage Entry := do
  let (size, data) ←
    if e.size = 0xFFFFFFFFFFFFFFFF ∨ e.size = 0xFFFFFFFF then large? "File size" data
    else pure (e.size, data)
  let (packed, data) ←
    if e.packed = 0xFFFFFFFF then large? "Compress size" data else pure (e.packed, data)
  let (header, _) ←
    if e.header = 0xFFFFFFFF then do
      let (n, data) ← large? "Header offset" data
      pure ((n : Int), data)
    else pure (e.header, data)
  pure { e with size := size, packed := packed, header := header }

/-- Four hexadecimal digits. -/
def hex4 (n : Nat) : String :=
  let ds := Nat.toDigits 16 n
  String.ofList (List.replicate (4 - ds.length) '0' ++ ds)

/-- Reads the extra fields of an entry. -/
def Entry.extend : Nat → Entry → List UInt8 → Except Damage Entry
  | 0, e, _ => .ok e
  | fuel + 1, e, extra =>
    if extra.length < 4 then .ok e
    else
      let kind := number extra.toArray 0 2
      let length := number extra.toArray 2 2
      if extra.length < length + 4 then
        .error (.broken ("Corrupt extra field " ++ hex4 kind ++ " (size=" ++ toString length ++ ")"))
      else do
        let e ← if kind = 1 then e.enlarge ((extra.drop 4).take length) else pure e
        Entry.extend fuel e (extra.drop (length + 4))

/-- The text of a tenth. -/
def tenths (n : Nat) : String := toString (n / 10) ++ "." ++ toString (n % 10)

/-- The newest version of the format that is understood, in tenths. -/
def newest : Nat := 63

/-- The entries of the directory from `total` bytes on; offsets are moved by `shift`. -/
def entries (directory : Array UInt8) (size : Nat) (shift : Int) :
    Nat → Nat → Except Damage (List Entry)
  | 0, _ => .ok []
  | fuel + 1, total =>
    if size ≤ total then .ok []
    else if directory.size < total + entrySize then
      .error (.broken "Truncated central directory")
    else if ¬ marked directory total 1 2 then
      .error (.broken "Bad magic number for central directory")
    else do
      let field (offset width : Nat) : Nat := number directory (total + offset) width
      let nameLength := field 28 2
      let extraLength := field 30 2
      let commentLength := field 32 2
      let flags := field 8 2
      let name ← decodeName flags (part directory (total + entrySize) nameLength)
      if newest < field 6 1 then
        .error (.beyond ⟨.unsupported, "zip file version " ++ tenths (field 6 1)⟩)
      else
        let e : Entry := ⟨name, flags, field 10 2, field 16 4, field 20 4, field 24 4, field 42 4,
          field 38 4⟩
        let extra := part directory (total + entrySize + nameLength) extraLength
        let e ← e.extend (extra.length + 1) extra
        let rest ← entries directory size shift fuel
          (total + entrySize + nameLength + extraLength + commentLength)
        pure ({ e with header := e.header + shift } :: rest)

/-- The places up to which the contents of entries may reach: the header of the next entry, or the
directory. `limits` pairs each entry with that place. -/
def withLimits (start : Nat) (es : List Entry) : List (Entry × Int) :=
  let indexed := es.zipIdx
  let descending := indexed.mergeSort fun a b => decide (b.1.header ≤ a.1.header)
  let headers := descending.map (·.1.header)
  let limited := descending.zip ((start : Int) :: headers)
  indexed.map fun (e, i) =>
    (e, ((limited.find? fun p => p.1.2 == i).map (·.2)).getD start)

/-! ## Contents -/

/-- How a content may be compressed, by name. -/
def methodName (method : Nat) : String :=
  match method with
  | 1 => "shrink"
  | 2 | 3 | 4 | 5 => "reduce"
  | 6 | 10 => "implode"
  | 7 => "tokenize"
  | 8 => "deflate"
  | 9 => "deflate64"
  | 12 => "bzip2"
  | 14 => "lzma"
  | 18 => "terse"
  | 19 => "lz77"
  | 97 => "wavpack"
  | 98 => "ppmd"
  | n => toString n

/-- The letters of three permissions; `special` has a letter of its own with or without the last
one. -/
def permissions (bits : Nat) (special : Bool) (with_ without : Char) : List Char :=
  let last := bits % 2 == 1
  [if bits / 4 % 2 = 1 then 'r' else '-', if bits / 2 % 2 = 1 then 'w' else '-',
    if special then (if last then with_ else without) else if last then 'x' else '-']

/-- The letter of a kind of file. -/
def kindLetter (mode : Nat) : Char :=
  match mode / 4096 % 16 with
  | 1 => 'p'
  | 2 => 'c'
  | 4 => 'd'
  | 6 => 'b'
  | 8 => '-'
  | 10 => 'l'
  | 12 => 's'
  | _ => '?'

/-- The mode of a file in letters. -/
def modeText (mode : Nat) : String :=
  String.ofList (kindLetter mode ::
    (permissions (mode / 64) (mode / 2048 % 2 == 1) 's' 'S' ++
      permissions (mode / 8) (mode / 1024 % 2 == 1) 's' 'S' ++
      permissions mode (mode / 512 % 2 == 1) 't' 'T'))

/-- An entry as messages show it. -/
def Entry.shown (e : Entry) : String :=
  let high := e.attributes / 65536
  let low := e.attributes % 65536
  "<ZipInfo filename=" ++ Quoted.string (String.ofList e.name) ++
    (if e.method = 0 then "" else " compress_type=" ++ methodName e.method) ++
    (if high = 0 then "" else " filemode='" ++ modeText high ++ "'") ++
    (if low = 0 then "" else " external_attr=0x" ++ String.ofList (Nat.toDigits 16 low)) ++
    " file_size=" ++ toString e.size ++
    (if e.method ≠ 0 ∨ e.size ≠ e.packed then " compress_size=" ++ toString e.packed else "") ++ ">"

/-- The size of a header without what follows it. -/
def headerSize : Nat := 30

/-- The places that a file can be asked for are those of a signed word of 64 bits. -/
def farthest : Int := 9223372036854775807

/-- The place behind a header, which must be a header and repeat the name of its entry. -/
def contentStart (data : Array UInt8) (e : Entry) : Except Damage Nat := do
  if e.header < -farthest - 1 ∨ farthest < e.header then
    .error (.beyond ⟨.overflow, "Python int too large to convert to C ssize_t"⟩)
  else if e.header < 0 then
    .error (.beyond ⟨.value, "negative seek value " ++ toString e.header⟩)
  else
    let start := e.header.toNat
    if data.size < start + headerSize then .error (.broken "Truncated file header")
    else if ¬ marked data start 3 4 then .error (.broken "Bad magic number for file header")
    else
      let nameLength := number data (start + 26) 2
      let nameBytes := part data (start + headerSize) nameLength
      if e.flags / 32 % 2 = 1 then
        .error (.beyond ⟨.unsupported, "compressed patched data (flag bit 5)"⟩)
      else if e.flags / 64 % 2 = 1 then
        .error (.beyond ⟨.unsupported, "strong encryption (flag bit 6)"⟩)
      else
        let name ← decodeName (number data (start + 6) 2) nameBytes
        if name ≠ e.fullName then
          .error (.broken ("File name in directory " ++ Quoted.string (String.ofList e.fullName) ++
            " and header " ++ Quoted.bytes nameBytes ++ " differ."))
        else
          pure (min data.size (start + headerSize + nameLength + number data (start + 28) 2))

/-- Undoes a compression. -/
abbrev Decoder := List UInt8 → Except Damage (List UInt8)

/-- The decoders of a build besides the one for deflated contents. -/
structure Codecs where
  /-- For bzip2. -/
  bzip2 : Option Decoder := none
  /-- For LZMA. -/
  lzma : Option Decoder := none

/-- A content that a decoder of its own unpacks, if the build has it. -/
def decodeBy (decoder : Option Decoder) (name : String) (packed : List UInt8) : Except Damage (List UInt8) :=
  match decoder with
  | some decode => decode packed
  | none => .error (.beyond ⟨.runtime, "Compression requires the (missing) " ++ name ++ " module"⟩)

/-- Undoes the compression of a content. -/
def unpack (k : Codecs) (e : Entry) (packed : List UInt8) : Except Damage (List UInt8) :=
  if e.method = 0 then .ok packed
  else if e.method = 8 then
    match Inflate.inflate packed with
    | .ok bytes => .ok bytes
    | .error why => .error (.beyond ⟨.stream, "Error -3 while decompressing data: " ++ why⟩)
  else if e.method = 12 then decodeBy k.bzip2 "bz2" packed
  else if e.method = 14 then decodeBy k.lzma "lzma" packed
  else .error (.beyond ⟨.unsupported, "That compression method is not supported"⟩)

/-- The content of an entry that may reach up to `limit`. -/
def read (k : Codecs) (data : Array UInt8) (e : Entry) (limit : Int) : Except Damage (List UInt8) := do
  let start ← contentStart data e
  if limit < start + e.packed then
    .error (.broken ("Overlapped entries: " ++ Quoted.string (String.ofList e.fullName) ++
      " (possible zip bomb)"))
  else if e.flags % 2 = 1 then
    .error (.beyond ⟨.runtime,
      "File " ++ e.shown ++ " is encrypted, password required for extraction"⟩)
  else
    let bytes ← unpack k e (part data start e.packed)
    let content := bytes.take e.size
    if Checksum.crc32 content = e.checksum then pure content
    else .error (.broken ("Bad CRC-32 for file " ++ Quoted.string (String.ofList e.name)))

/-- The members of an archive, as a build with some codecs reads them. -/
def membersWith (k : Codecs) (bytes : List UInt8) : Except Damage (List Member) := do
  let data := bytes.toArray
  let record ← endRecord data
  let tail := if record.isLarge then largeEndSize + locatorSize else 0
  let shift : Int := (record.location : Int) - record.size - record.offset - tail
  let start : Int := record.offset + shift
  if start < 0 then .error (.broken "Bad offset for central directory")
  else
    let directory := data.extract start.toNat (start.toNat + record.size)
    let es ← entries directory record.size shift (directory.size + 1) 0
    pure ((withLimits start.toNat es).map fun (e, limit) =>
      ⟨String.ofList e.name, e.size, fun _ => read k data e limit⟩)

/-- The members of an archive, as a build with no codecs of its own reads them. -/
def members : List UInt8 → Except Damage (List Member) := membersWith {}

end Maintainability.Zip
