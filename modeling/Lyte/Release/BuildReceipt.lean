import Lyte.Domain.AsciiJson
import Lyte.Domain.Scanned

/-
  Lyte.Release.BuildReceipt — build receipts and their verification.

  A build receipt lists every file of the application payload with its size and
  digest, and binds the list to a source revision.  `buildReceiptDocument` makes
  one from an application tree; `observeBuildReceipt` measures stored bytes
  against a tree and an expected revision, and reports what it found as a state.

  The application tree is a value of `Node`: what one path of the file system
  holds.  A directory lists its entries in the order the operating system
  happens to give them.
-/

namespace Lyte

/-! ## §1. Constants. -/

def buildReceiptSchema : PyStr := py "szl.lyte-build-receipt/v1"
def buildReceiptService : PyStr := py "lyte-signal-lattice"
def sourceRepository : PyStr := py "szl-holdings/lyte-services"
def payloadScope : PyStr := py "lyte-application-files/v1"
def payloadAlgorithm : PyStr := py "sha256"
def sourceRevisionName : PyStr := py "source_revision.txt"

/-- `PAYLOAD_ROOTS`. -/
def payloadRoots : List PyStr :=
  [py "lyte", py "lyte_engine", py "lyte_api", py "space", py "migrations"]

/-- `PAYLOAD_FILES`. -/
def payloadFiles : List PyStr :=
  [py "requirements.txt", py "alembic.ini", py "README.md", py "LICENSE", py "NOTICE",
    sourceRevisionName]

def maxReceiptBytes : Nat := 4000000

/-- `_SHA40.fullmatch(value)`. -/
def isSha40 (s : PyStr) : Bool := s.length == 40 && s.all isLowerHex

/-- The class of `_SAFE_PATH`: letters, digits, dot, underscore, slash and hyphen. -/
def isSafePathChar (c : Nat) : Bool := isAlnum c || c == 46 || c == 95 || c == 47 || c == 45

/-- What building and verifying raise. -/
inductive BuildError where
  /-- BuildReceiptError -/
  | receipt (message : PyStr)
  /-- UnicodeDecodeError -/
  | unicodeDecode
  /-- OSError -/
  | os
deriving DecidableEq

/-! ## §2. The application tree. -/

/-- The bytes of a regular file; `st_size` is a signed 64-bit number. -/
structure FileContent where
  bytes : List UInt8
  size_lt : bytes.length < 2 ^ 63

/-- What a path holds.  A symbolic link has what it leads to, unless it dangles;
`special` is a FIFO, a socket or a device. -/
inductive Node where
  | file (content : FileContent)
  | directory (entries : List (PyStr × Node))
  | symlink (target : Option Node)
  | special

namespace Node

/-- `Path.is_symlink()`. -/
def isSymlink : Node → Bool
  | .symlink _ => true
  | _ => false

/-- `Path.is_dir()`, which follows links. -/
def isDir : Node → Bool
  | .directory _ => true
  | .symlink (some target) => target.isDir
  | _ => false

/-- `Path.is_file()`, which follows links. -/
def isFile : Node → Bool
  | .file _ => true
  | .symlink (some target) => target.isFile
  | _ => false

/-- `Path.exists()`, which follows links. -/
def pathExists : Node → Bool
  | .symlink (some target) => target.pathExists
  | .symlink none => false
  | _ => true

/-- `Path.read_bytes()`. -/
def readBytes : Node → Except BuildError (List UInt8)
  | .file content => .ok content.bytes
  | .symlink (some target) => target.readBytes
  | _ => .error .os

/-- `Path.read_text(encoding="utf-8")`, before line ends are translated: the
readers strip them. -/
def readText (n : Node) : Except BuildError PyStr := do
  let bytes ← n.readBytes
  match decodeUtf8 (bytes.map UInt8.toNat) with
  | some text => if noSurrogates text then return text else throw .unicodeDecode
  | none => throw .unicodeDecode

end Node

/-- The entries of a directory. -/
abbrev Directory := List (PyStr × Node)

/-- `directory / name`. -/
def Directory.entry (root : Directory) (name : PyStr) : Option Node := List.lookup name root

/-! ## §3. Collecting the payload. -/

def unsafePath : BuildError := .receipt (py "receipt contains an unsafe payload path")

/-- `PurePosixPath(value).parts` of a relative path: empty components and single
dots are dropped. -/
def pathParts (value : PyStr) : List PyStr :=
  (value.splitOn 47).filter (fun part => part != [] && part != [46])

/-- `_validate_relative_path`. -/
def validateRelativePath (value : PyStr) : Except BuildError Unit := do
  if value.isEmpty || !value.all isSafePathChar || value.contains 92 then throw unsafePath
  if value.head? == some 47 ||
      (pathParts value).any (fun part => part == [] || part == [46] || part == [46, 46]) then
    throw unsafePath

/-- A regular file of the payload, with its path below the root. -/
structure PayloadFile where
  path : PyStr
  content : FileContent

/-- What `os.walk` finds of one entry: what it is, and the walk below it. -/
structure Visit where
  node : Node
  below : Except BuildError (List PayloadFile)

/-- The loop over `directory_names`: the names that are kept. -/
def keptDirectories : List (PyStr × Visit) → Except BuildError (List (PyStr × Visit))
  | [] => .ok []
  | (name, visit) :: rest => do
      if visit.node.isSymlink then throw (.receipt (py "payload symlinks are forbidden"))
      let kept ← keptDirectories rest
      if name = py "__pycache__" then return kept
      else return (name, visit) :: kept

/-- The loop over `file_names`. -/
def regularFiles (current : PyStr) : List (PyStr × Visit) → Except BuildError (List PayloadFile)
  | [] => .ok []
  | (name, visit) :: rest =>
      match visit.node with
      | .symlink _ => .error (.receipt (py "payload symlinks are forbidden"))
      | .file content => do
          let files ← regularFiles current rest
          return ⟨current ++ [47] ++ name, content⟩ :: files
      | _ => .error (.receipt (py "payload must contain regular files only"))

/-- One directory of the walk, top down. -/
def walkDirectory (current : PyStr) (visits : List (PyStr × Visit)) :
    Except BuildError (List PayloadFile) := do
  let names := sortByKey visits
  let kept ← keptDirectories (names.filter (fun e => e.2.node.isDir))
  let files ← regularFiles current (names.filter (fun e => !e.2.node.isDir))
  let below ← kept.mapM (fun e => e.2.below)
  return files ++ below.flatten

mutual
/-- `os.walk(root, followlinks=False)` below the relative path `current`, with the
body of the loop in `_walk_payload_root`. -/
def Node.walk (current : PyStr) : Node → Except BuildError (List PayloadFile)
  | .directory entries => walkDirectory current (Node.visits current entries)
  | _ => .ok []

def Node.visits (current : PyStr) : List (PyStr × Node) → List (PyStr × Visit)
  | [] => []
  | (name, node) :: rest =>
      (name, ⟨node, node.walk (current ++ [47] ++ name)⟩) :: Node.visits current rest
end

/-- `_walk_payload_root`. -/
def walkPayloadRoot (root : Directory) (relativeRoot : PyStr) :
    Except BuildError (List PayloadFile) :=
  let unavailable := BuildError.receipt (py "required payload root is unavailable: " ++ relativeRoot)
  match root.entry relativeRoot with
  | none => .error unavailable
  | some node =>
      if !node.isDir || node.isSymlink then .error unavailable else node.walk relativeRoot

/-- One of the single files of the payload. -/
def payloadFile (root : Directory) (relativeFile : PyStr) : Except BuildError PayloadFile :=
  match root.entry relativeFile with
  | some (.file content) => .ok ⟨relativeFile, content⟩
  | _ => .error (.receipt (py "required payload file is unavailable: " ++ relativeFile))

/-- A line of the manifest. -/
structure PayloadEntry where
  path : PyStr
  size : Nat
  sha256 : PyStr
deriving DecidableEq

def PayloadEntry.json (e : PayloadEntry) : Json := .dict [
  (py "path", .str e.path),
  (py "size", .int e.size),
  (py "sha256", .str e.sha256)]

/-- `sorted(items, key=…)`, by the code points of the key. -/
def sortedBy {α : Type} (key : α → PyStr) (items : List α) : List α :=
  (sortByKey (items.map (fun a => (key a, a)))).map Prod.snd

section Documents

variable (rt : Runtime)

/-- The manifest line of a file. -/
def payloadEntry (f : PayloadFile) : Except BuildError PayloadEntry := do
  validateRelativePath f.path
  return ⟨f.path, f.content.bytes.length, rt.sha256 f.content.bytes⟩

/-- `collect_payload_entries`. -/
def collectPayloadEntries (root : Directory) : Except BuildError (List PayloadEntry) := do
  let below ← payloadRoots.mapM (walkPayloadRoot root)
  let files ← payloadFiles.mapM (payloadFile root)
  let entries ← (below.flatten ++ files).mapM (payloadEntry rt)
  let entries := sortedBy PayloadEntry.path entries
  if ¬ (entries.map PayloadEntry.path).Nodup then
    throw (.receipt (py "payload contains duplicate paths"))
  return entries

/-! ## §4. The document. -/

/-- `_canonical_json`. -/
def canonicalBytes (v : Json) : List UInt8 := (v.renderWith rt quoteAscii).flatMap utf8Bytes

/-- `_manifest_basis`, with further fields of its payload. -/
def manifestBasis (sourceRevision : PyStr) (entries : List PayloadEntry)
    (digest : List (PyStr × Json)) : Json := .dict [
  (py "schema", .str buildReceiptSchema),
  (py "service", .str buildReceiptService),
  (py "source", .dict [
    (py "repository", .str sourceRepository),
    (py "revision", .str sourceRevision)]),
  (py "payload", .dict ([
    (py "scope", .str payloadScope),
    (py "algorithm", .str payloadAlgorithm),
    (py "files", .list (entries.map PayloadEntry.json))] ++ digest))]

/-- The digest that a receipt carries of its own basis. -/
def manifestDigest (sourceRevision : PyStr) (entries : List PayloadEntry) : PyStr :=
  rt.sha256 (canonicalBytes rt (manifestBasis sourceRevision entries []))

/-- The receipt over `entries`. -/
def receiptDocument (sourceRevision : PyStr) (entries : List PayloadEntry) : Json :=
  manifestBasis sourceRevision entries
    [(py "sha256", .str (manifestDigest rt sourceRevision entries))]

/-- `.strip().lower()`; no character outside of ASCII lowers to a hexadecimal digit. -/
def stripLower (s : PyStr) : PyStr := (strip s).map asciiLower

/-- The text of the marker. -/
def sourceMarker (root : Directory) : Except BuildError PyStr :=
  match root.entry sourceRevisionName with
  | some node => node.readText
  | none => .error .os

/-- `_source_revision`. -/
def sourceRevisionOf (root : Directory) (supplied : Option PyStr) : Except BuildError PyStr := do
  let marker := stripLower (← sourceMarker root)
  let requested := stripLower (supplied.getD [])
  if !isSha40 marker then
    throw (.receipt (py "source_revision.txt must contain an exact source revision"))
  if !requested.isEmpty && !isSha40 requested then
    throw (.receipt (py "source revision must be 40 lowercase hexadecimal characters"))
  if !requested.isEmpty && requested != marker then
    throw (.receipt (py "source revision does not agree with source_revision.txt"))
  if requested.isEmpty then return marker else return requested

/-- `build_receipt_document`. -/
def buildReceiptDocument (root : Directory) (sourceRevision : Option PyStr) :
    Except BuildError Json := do
  let revision ← sourceRevisionOf root sourceRevision
  let entries ← collectPayloadEntries rt root
  return receiptDocument rt revision entries

end Documents

/-! ## §5. Reading a stored receipt. -/

/-- `set(fields) == set(keys)`. -/
def hasExactly (fields : List (PyStr × Json)) (keys : List PyStr) : Bool :=
  fields.all (fun f => keys.contains f.1) && keys.all (fun k => (Json.lookup fields k).isSome)

section Verify

variable (rt : Interpreter)

/-- `_parse_document`.  Every failure of `json.loads` is taken as one it catches;
and where `loads` refuses a constant that is no number, the source reads it as a
float, which `_validate_document` refuses wherever it stands. -/
def parseDocument (raw : List UInt8) : Except BuildError (List (PyStr × Json)) :=
  match loads rt [] raw with
  | .error _ => .error (.receipt (py "receipt is not unambiguous UTF-8 JSON"))
  | .ok (.dict fields) =>
      if raw ≠ canonicalBytes rt.toRuntime (.dict fields) ++ [10] then
        .error (.receipt (py "receipt bytes are not canonical JSON"))
      else .ok fields
  | .ok _ => .error (.receipt (py "receipt root must be a JSON object"))

/-- The loop over `files` in `_validate_document`. -/
def validateEntry (entry : Json) : Except BuildError PayloadEntry :=
  match entry with
  | .dict fields =>
      if !hasExactly fields [py "path", py "size", py "sha256"] then
        .error (.receipt (py "receipt payload entry is invalid"))
      else
        match Json.get fields (py "path") with
        | .str path => do
            validateRelativePath path
            match Json.get fields (py "size") with
            | .int size =>
                if size < 0 then throw (.receipt (py "receipt payload size is invalid"))
                else
                  match Json.get fields (py "sha256") with
                  | .str digest =>
                      if !isSha256Hex digest then
                        throw (.receipt (py "receipt payload file digest is invalid"))
                      else return ⟨path, size.toNat, digest⟩
                  | _ => throw (.receipt (py "receipt payload file digest is invalid"))
            | _ => throw (.receipt (py "receipt payload size is invalid"))
        | _ => .error (.receipt (py "receipt payload path is invalid"))
  | _ => .error (.receipt (py "receipt payload entry is invalid"))

/-- The `source` of a receipt: its revision. -/
def validateSource (source : Json) : Except BuildError PyStr :=
  match source with
  | .dict fields =>
      if !hasExactly fields [py "repository", py "revision"] then
        .error (.receipt (py "receipt source contract is invalid"))
      else if !(Json.get fields (py "repository")).pyEq (.str sourceRepository) then
        .error (.receipt (py "receipt source repository is not canonical"))
      else
        match Json.get fields (py "revision") with
        | .str revision =>
            if !isSha40 revision then .error (.receipt (py "receipt source revision is invalid"))
            else .ok revision
        | _ => .error (.receipt (py "receipt source revision is invalid"))
  | _ => .error (.receipt (py "receipt source contract is invalid"))

/-- The `payload` of a receipt: its digest and its manifest. -/
def validatePayload (payload : Json) : Except BuildError (PyStr × List PayloadEntry) :=
  match payload with
  | .dict fields =>
      if !hasExactly fields [py "scope", py "algorithm", py "files", py "sha256"] then
        .error (.receipt (py "receipt payload contract is invalid"))
      else if !(Json.get fields (py "scope")).pyEq (.str payloadScope) ||
          !(Json.get fields (py "algorithm")).pyEq (.str payloadAlgorithm) then
        .error (.receipt (py "receipt payload scope or algorithm is unsupported"))
      else
        match Json.get fields (py "sha256") with
        | .str payloadSha256 =>
            if !isSha256Hex payloadSha256 then
              .error (.receipt (py "receipt payload digest is invalid"))
            else
              match Json.get fields (py "files") with
              | .list (file :: files) => do
                  let validated ← (file :: files).mapM validateEntry
                  let paths := validated.map PayloadEntry.path
                  if paths ≠ sortedBy id paths ∨ ¬ paths.Nodup then
                    throw (.receipt (py "receipt payload paths must be unique and sorted"))
                  return (payloadSha256, validated)
              | _ => .error (.receipt (py "receipt payload manifest is empty"))
        | _ => .error (.receipt (py "receipt payload digest is invalid"))
  | _ => .error (.receipt (py "receipt payload contract is invalid"))

/-- What `_validate_document` returns. -/
structure ValidatedReceipt where
  revision : PyStr
  payloadSha256 : PyStr
  entries : List PayloadEntry

/-- `_validate_document`. -/
def validateDocument (document : List (PyStr × Json)) : Except BuildError ValidatedReceipt := do
  if !hasExactly document [py "schema", py "service", py "source", py "payload"] then
    throw (.receipt (py "receipt top-level fields are invalid"))
  if !(Json.get document (py "schema")).pyEq (.str buildReceiptSchema) ||
      !(Json.get document (py "service")).pyEq (.str buildReceiptService) then
    throw (.receipt (py "receipt schema or service is unsupported"))
  let revision ← validateSource (Json.get document (py "source"))
  let (payloadSha256, entries) ← validatePayload (Json.get document (py "payload"))
  return ⟨revision, payloadSha256, entries⟩

/-! ## §6. Observing a receipt. -/

inductive ReceiptState where
  | missing | missingOptionalLocal | invalid | sourceMismatch | payloadMismatch | verified
deriving DecidableEq

def ReceiptState.value : ReceiptState → PyStr
  | .missing => py "MISSING"
  | .missingOptionalLocal => py "MISSING_OPTIONAL_LOCAL"
  | .invalid => py "INVALID"
  | .sourceMismatch => py "SOURCE_MISMATCH"
  | .payloadMismatch => py "PAYLOAD_MISMATCH"
  | .verified => py "VERIFIED"

/-- `BuildReceiptObservation`. -/
structure BuildReceiptObservation where
  state : ReceiptState
  valid : Bool
  required : Bool
  receiptSha256 : Option PyStr
  payloadSha256 : Option PyStr
  sourceRevision : Option PyStr
  failures : List PyStr
  raw : Option (List UInt8)
  document : Option Json

/-- An observation that stopped before the receipt was read. -/
def BuildReceiptObservation.unread (state : ReceiptState) (required : Bool) (failure : PyStr) :
    BuildReceiptObservation :=
  ⟨state, false, required, none, none, none, [failure], none, none⟩

/-- The `try` block of `observe_build_receipt`, on the bytes of the receipt. -/
def measureReceipt (root : Directory) (expectedSourceRevision : Option PyStr) (required : Bool)
    (raw : List UInt8) : Except BuildError BuildReceiptObservation := do
  if raw.isEmpty || maxReceiptBytes < raw.length then
    throw (.receipt (py "receipt size is outside the accepted bounds"))
  let document ← parseDocument rt raw
  let receipt ← validateDocument document
  let observed (state : ReceiptState) (failures : List PyStr) : BuildReceiptObservation :=
    ⟨state, decide (state = .verified), required, some (rt.sha256 raw), some receipt.payloadSha256,
      some receipt.revision, failures, some raw, some (.dict document)⟩
  if expectedSourceRevision ≠ some receipt.revision then
    return observed .sourceMismatch [py "BUILD_RECEIPT_SOURCE_MISMATCH"]
  if manifestDigest rt.toRuntime receipt.revision receipt.entries ≠ receipt.payloadSha256 then
    return observed .invalid [py "BUILD_RECEIPT_MANIFEST_DIGEST_MISMATCH"]
  let currentEntries ← collectPayloadEntries rt.toRuntime root
  if currentEntries ≠ receipt.entries then
    return observed .payloadMismatch [py "BUILD_RECEIPT_PAYLOAD_MISMATCH"]
  return observed .verified []

/-- `observe_build_receipt`; `stored` is what the receipt's path holds. -/
def observeBuildReceipt (root : Directory) (expectedSourceRevision : Option PyStr)
    (required : Bool) (stored : Option Node) : BuildReceiptObservation :=
  let missing := BuildReceiptObservation.unread
    (if required then .missing else .missingOptionalLocal) required (py "BUILD_RECEIPT_MISSING")
  match stored with
  | none => missing
  | some node =>
      if !node.pathExists then missing
      else if node.isSymlink || !node.isFile then
        .unread .invalid required (py "BUILD_RECEIPT_NOT_REGULAR_FILE")
      else
        match node.readBytes >>= measureReceipt rt root expectedSourceRevision required with
        | .ok observation => observation
        | .error _ => .unread .invalid required (py "BUILD_RECEIPT_INVALID")

end Verify

end Lyte
