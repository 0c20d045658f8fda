/-
The index of duplicate methods: from the digest of a method's layout-free text to the places where
it occurs. Occurrences are recorded in batches, one batch a file, until the index is sealed; a
sealed index accepts nothing more. Paths and names are free of surrogates, the texts of methods need
not be.
-/
import Maintainability.Digest
import Maintainability.Error
import Maintainability.Log
import Maintainability.Text.Runs
import Maintainability.Text.Utf8

namespace Maintainability

/-- A place where a method occurs. -/
structure Occurrence where
  /-- The path of the file. -/
  path : String
  /-- The name of the method. -/
  method : String
  /-- The line on which it begins; 0 if unknown. -/
  line : Int
  deriving DecidableEq, Repr, Inhabited

/-- By path, then by method, then by line. -/
def Occurrence.le (a b : Occurrence) : Bool :=
  if a.path = b.path then
    if a.method = b.method then a.line ≤ b.line else a.method < b.method
  else a.path < b.path

/-- The error of a method without a digest. -/
def Occurrence.hashing (o : Occurrence) (e : Text.Unencodable) : Error :=
  .hashing o.path o.method e.message

/-- The record of a method without a digest. -/
def Occurrence.unhashed (o : Occurrence) (e : Text.Unencodable) : Log.Record :=
  ⟨.warning, (o.hashing e).message ++ "; method contributes no duplication signal"⟩

/-- The digest of a method's text: of its layout-free form in UTF-8. -/
def bodyDigest (source : Text) : Except Text.Unencodable String :=
  match Utf8.encodeText source.normalize with
  | .ok bytes => .ok (Digest.sha1 bytes)
  | .error e => .error e

/-- All occurrences of one digest. -/
structure Entry where
  /-- The digest. -/
  digest : String
  /-- The occurrences, in the order of recording. -/
  occurrences : List Occurrence
  deriving DecidableEq, Repr, Inhabited

namespace Entry

/-- Two occurrences or more. -/
def isDuplicate (e : Entry) : Bool := 2 ≤ e.occurrences.length

/-- The distinct paths of the occurrences, in ascending order. -/
def files (e : Entry) : List String :=
  ((e.occurrences.map (·.path)).eraseDups).mergeSort (fun a b => decide (a ≤ b))

/-- The same entry with its occurrences in ascending order. -/
def sorted (e : Entry) : Entry := ⟨e.digest, e.occurrences.mergeSort Occurrence.le⟩

end Entry

/-- Links between files: each path with the paths that it shares a method with. -/
abbrev Links := List (String × List String)

namespace Links

/-- The paths linked to a path. -/
def get (links : Links) (path : String) : List String :=
  match links.find? (·.1 == path) with
  | some (_, others) => others
  | none => []

/-- Adds a link in one direction. -/
def add (links : Links) (source target : String) : Links :=
  match links with
  | [] => [(source, [target])]
  | (p, others) :: rest =>
    if p = source then (p, if others.contains target then others else others ++ [target]) :: rest
    else (p, others) :: add rest source target

/-- Adds a link in both directions. -/
def connect (links : Links) (pair : String × String) : Links :=
  (links.add pair.1 pair.2).add pair.2 pair.1

end Links

/-- The pairs of elements at two different positions, the earlier one first. -/
def pairs {α : Type} : List α → List (α × α)
  | [] => []
  | x :: xs => xs.map (x, ·) ++ pairs xs

/-- The index. -/
structure Index where
  /-- One entry for each digest, in the order of first recording. -/
  entries : List Entry := []
  /-- Nothing more is accepted. -/
  isSealed : Bool := false
  deriving DecidableEq, Repr, Inhabited

namespace Index

/-- The number of digests. -/
def size (i : Index) : Nat := i.entries.length

/-- Files an occurrence under its digest. -/
def file (entries : List Entry) (digest : String) (o : Occurrence) : List Entry :=
  match entries with
  | [] => [⟨digest, [o]⟩]
  | e :: rest =>
    if e.digest = digest then ⟨e.digest, e.occurrences ++ [o]⟩ :: rest
    else e :: file rest digest o

/-- Records a batch, all of it or nothing, and says whether it was accepted. -/
def recordDigests (i : Index) (batch : List (String × Occurrence)) : Bool × Index :=
  if i.isSealed then (false, i)
  else (true, { i with entries := batch.foldl (fun es (d, o) => file es d o) i.entries })

/-- Records one method under the digest of its text; `none` if it has none or the index is
sealed. -/
def record (i : Index) (source : Text) (o : Occurrence) :
    Option String × Index × List Log.Record :=
  match bodyDigest source with
  | .error e => (none, i, [o.unhashed e])
  | .ok digest =>
    match i.recordDigests [(digest, o)] with
    | (true, i) => (some digest, i, [])
    | (false, i) => (none, i, [])

/-- Seals the index. -/
def close (i : Index) : Index := { i with isSealed := true }

/-- The digests with two occurrences or more, in ascending order, each with its occurrences in
ascending order. -/
def duplicateGroups (i : Index) : List Entry :=
  ((i.entries.filter (·.isDuplicate)).map Entry.sorted).mergeSort
    (fun a b => decide (a.digest ≤ b.digest))

/-- The links between files: all pairs of distinct files of each duplicate entry. -/
def links (i : Index) : Links :=
  (i.entries.filter (·.isDuplicate)).foldl
    (fun ls e => (pairs e.files).foldl Links.connect ls) []

/-- Seals the index and resolves its links. -/
def resolve (i : Index) : Links × Index := (i.close.links, i.close)

end Index

end Maintainability
