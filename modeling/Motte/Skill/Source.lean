import Mathlib.Algebra.Ring.Nat
import Mathlib.Data.List.SplitOn
import Motte.Foundation.Document
import Motte.Foundation.Op

/-! The files of a skill source.

A source is a directory or an archive. It is read into memory, file by file, within limits
on names, numbers and sizes; nothing is written and nothing is run. What an archive says of
the size of a member is held against what the member expands to. -/
namespace Motte.Skill
open Foundation

abbrev Bytes := List UInt8

/-- `SkillImportCode` -/
inductive SkillImportCode where
  | sourceMissing
  | sourceUnsupported
  | manifestMissing
  | manifestInvalid
  | licenceMissing
  | pathTraversal
  | symlinkResource
  | tooManyFiles
  | oversizedResource
  | oversizedExtraction
  | zipBombDeclaredMismatch
  | zipBombRatio
  | archiveCompressionUnsupported
  | archiveInvalid
  | nestedArchive
  | unknownBinary
  | undeclaredResource
  | undeclaredExecutable
  | executableNotPermitted
  | declaredResourceMissing
  | resourceHashMismatch
  | instructionRefUndeclared
  | unpinnedDependency
  | credentialsArtifact
  | vendoredDependency
deriving DecidableEq

structure SkillImportError where
  code : SkillImportCode
  message : String
  path : Option String := none
deriving DecidableEq

/-- `_FoundFile` -/
structure FoundFile where
  path : String
  data : Bytes
  executable : Bool
deriving DecidableEq

def maxResourceFiles : ℕ := 256
def maxResourceBytes : ℕ := 4 * 1024 * 1024
def maxTotalResourceBytes : ℕ := 16 * 1024 * 1024
def maxArchiveBytes : ℕ := 32 * 1024 * 1024
def maxCompressionRatio : ℕ := 100
def minRatioCheckBytes : ℕ := 64 * 1024
def maxPathDepth : ℕ := 16

/-! ### Names -/

/-- `name.split("/")` -/
def segments (name : String) : List String := (name.toList.splitOn '/').map String.ofList

/-- `_DRIVE_LETTER.match(name)` is a match. -/
def hasDriveLetter (name : String) : Bool :=
  match name.toList with
  | c :: ':' :: _ => c.isAlpha
  | _ => false

/-- `name != name.strip()` -/
def padded (name : String) : Bool := name.toList.head?.any isSpace || name.toList.getLast?.any isSpace

/-- `_check_entry_name`, of a text -/
def checkEntryName (name : String) : Except SkillImportError String := do
  ensure (name ≠ "" ∧ padded name = false) { code := .pathTraversal, message := "empty or padded resource path" }
  ensure ('\\' ∉ name.toList) {
    code := .pathTraversal, message := "backslashes are not portable resource paths", path := name }
  ensure (name.toList.head? ≠ some '/' ∧ hasDriveLetter name = false) {
    code := .pathTraversal, message := "absolute resource paths are refused", path := name }
  ensure (∀ segment ∈ segments name, segment ∉ ["", ".", ".."]) {
    code := .pathTraversal, message := "resource path contains empty or traversal segments", path := name }
  ensure ((segments name).length ≤ maxPathDepth) { code := .pathTraversal, message := "resource path is too deep", path := name }
  return name

/-- `_check_limits` -/
def checkLimits (count : ℕ) (name : String) (size : ℕ) : Except SkillImportError Unit := do
  ensure (count ≤ maxResourceFiles) {
    code := .tooManyFiles, message := s!"skill source declares more than {maxResourceFiles} files" }
  ensure (size ≤ maxResourceBytes) {
    code := .oversizedResource, message := s!"resource exceeds {maxResourceBytes} bytes", path := name }

/-! ### Files that have been read -/

/-- `files[path] = file` -/
def putFile (files : List FoundFile) (file : FoundFile) : List FoundFile :=
  if files.any (fun f => f.path = file.path) then files.map (fun f => if f.path = file.path then file else f) else files ++ [file]

/-- The files that have been read, and the number of their bytes. -/
structure ReadSoFar where
  files : List FoundFile := []
  total : ℕ := 0

/-- A file is taken over when it keeps the limits. -/
def takeFile (what : String) (s : ReadSoFar) (file : FoundFile) : Except SkillImportError ReadSoFar := do
  checkLimits (s.files.length + 1) file.path file.data.length
  ensure (s.total + file.data.length ≤ maxTotalResourceBytes) {
    code := .oversizedExtraction, message := s!"{what} extracts to more than {maxTotalResourceBytes} bytes" }
  return { files := putFile s.files file, total := s.total + file.data.length }

/-! ### Directories -/

/-- What a walk over a directory comes upon. -/
inductive Visit where
  | folder (path : String) (link : Bool)
  | file (path : String) (link : Bool) (data : Bytes) (mode : ℕ)

/-- A bit of `0o111` is set. -/
def executableMode (mode : ℕ) : Bool := mode &&& 0o111 ≠ 0

def visit (s : ReadSoFar) : Visit → Except SkillImportError ReadSoFar
  | .folder path link => do
    ensure (link = false) { code := .symlinkResource, message := "symlinked directories are refused", path }
    return s
  | .file path link data mode => do
    ensure (link = false) { code := .symlinkResource, message := "symlinked files are refused", path }
    let _ ← checkEntryName path
    takeFile "skill source" s { path, data, executable := executableMode mode }

/-- `_read_directory` -/
def readDirectory (visits : List Visit) : Except SkillImportError (List FoundFile) := do
  return (← visits.foldlM visit {}).files

/-! ### Archives -/

/-- `zipfile.ZipInfo` -/
structure ZipInfo where
  filename : String
  externalAttr : ℕ
  headerOffset : ℕ
  fileSize : ℕ
  compressSize : ℕ
  compressType : ℕ

/-- An archive: its bytes, and the members that its directory lists, unless it is no archive. -/
structure Archive where
  name : String
  payload : Bytes
  infos : Option (List ZipInfo)

/-- `info.is_dir()` -/
def ZipInfo.isDir (info : ZipInfo) : Bool := info.filename.toList.getLast? = some '/'

/-- `stat.S_ISLNK` -/
def isLink (mode : ℕ) : Bool := mode &&& 0o170000 = 0o120000

/-- The signature of a local header. -/
def localHeader : Bytes := [0x50, 0x4b, 0x03, 0x04]

/-- `int.from_bytes(header[i:i + 2], "little")` -/
def littleEndian (header : Bytes) (i : ℕ) : ℕ := (header.getD i 0).toNat + 256 * (header.getD (i + 1) 0).toNat

section
variable (inflate : Bytes → Option Bytes)

/-- `_inflate_bounded`, with the decompressor, which stops behind the limit. -/
def inflateBounded (blob : Bytes) (name : String) : Except SkillImportError Bytes :=
  match inflate blob with
  | none => .error { code := .archiveInvalid, message := "entry payload is not valid deflate data", path := some name }
  | some data =>
    if maxResourceBytes < data.length then
      .error { code := .oversizedResource, message := s!"resource exceeds {maxResourceBytes} bytes", path := some name }
    else .ok data

/-- `_decompress_member` -/
def decompressMember (payload : Bytes) (info : ZipInfo) : Except SkillImportError Bytes := do
  ensure (info.fileSize ≤ maxResourceBytes) {
    code := .oversizedResource, message := s!"resource exceeds {maxResourceBytes} bytes", path := info.filename }
  let header := (payload.drop info.headerOffset).take 30
  ensure (header.length = 30 ∧ header.take 4 = localHeader) {
    code := .archiveInvalid, message := "entry has no readable local header", path := info.filename }
  let start := info.headerOffset + 30 + littleEndian header 26 + littleEndian header 28
  ensure (¬(info.compressSize = 0 ∧ 0 < info.fileSize)) {
    code := .archiveInvalid, message := "streamed entries without a compressed size are refused", path := info.filename }
  let blob := (payload.drop start).take info.compressSize
  let data ← if info.compressType = 0 then .ok blob
    else if info.compressType = 8 then inflateBounded inflate blob info.filename
    else .error {
      code := .archiveCompressionUnsupported, message := s!"unsupported compression method {info.compressType}"
      path := some info.filename }
  ensure (data.length = info.fileSize) {
    code := .zipBombDeclaredMismatch, message := s!"entry declares {info.fileSize} bytes but expands to {data.length}"
    path := info.filename }
  ensure (¬(minRatioCheckBytes ≤ info.fileSize ∧ 0 < info.compressSize ∧ maxCompressionRatio * info.compressSize < info.fileSize)) {
    code := .zipBombRatio, message := "entry compression ratio exceeds 100.0", path := info.filename }
  return data

def member (payload : Bytes) (s : ReadSoFar) (info : ZipInfo) : Except SkillImportError ReadSoFar := do
  let name ← checkEntryName info.filename
  let mode := info.externalAttr >>> 16
  ensure (isLink mode = false) { code := .symlinkResource, message := "symlink entries are refused", path := name }
  let data ← decompressMember inflate payload info
  takeFile "archive" s { path := name, data, executable := executableMode mode }

/-- `_read_archive` -/
def readArchive (archive : Archive) : Except SkillImportError (List FoundFile) := do
  ensure (archive.payload.length ≤ maxArchiveBytes) {
    code := .oversizedExtraction, message := s!"archive exceeds {maxArchiveBytes} bytes", path := archive.name }
  match archive.infos with
  | none => .error { code := .archiveInvalid, message := "archive is not a readable zip file", path := some archive.name }
  | some listed =>
    let infos := listed.filter (fun info => !info.isDir)
    ensure (infos.length ≤ maxResourceFiles) {
      code := .tooManyFiles, message := s!"archive declares more than {maxResourceFiles} files" }
    ensure ((infos.map ZipInfo.fileSize).sum ≤ maxTotalResourceBytes) {
      code := .oversizedExtraction, message := s!"archive declares more than {maxTotalResourceBytes} uncompressed bytes" }
    return (← infos.foldlM (member inflate archive.payload) {}).files

end

/-- What a source can be. -/
inductive Source where
  | missing
  | directory (visits : List Visit)
  | archive (archive : Archive)
  | other

/-- The first part of `import_skill`: the files of the source. -/
def readSource (inflate : Bytes → Option Bytes) : Source → Except SkillImportError (List FoundFile)
  | .missing => .error { code := .sourceMissing, message := "skill source does not exist" }
  | .directory visits => readDirectory visits
  | .archive archive => readArchive inflate archive
  | .other => .error { code := .sourceUnsupported, message := "skill source must be a directory or a zip archive" }

/-! ### What has been read keeps the limits -/

/-- Paths that stay below the source, each once, no more files and no more bytes than are allowed. -/
structure Bounded (files : List FoundFile) : Prop where
  names : ∀ f ∈ files, checkEntryName f.path = .ok f.path
  once : (files.map FoundFile.path).Nodup
  count : files.length ≤ maxResourceFiles
  sizes : ∀ f ∈ files, f.data.length ≤ maxResourceBytes
  total : (files.map (fun f => f.data.length)).sum ≤ maxTotalResourceBytes

/-- What holds while files are read. -/
structure ReadSoFar.Ok (s : ReadSoFar) : Prop where
  names : ∀ f ∈ s.files, checkEntryName f.path = .ok f.path
  once : (s.files.map FoundFile.path).Nodup
  count : s.files.length ≤ maxResourceFiles
  sizes : ∀ f ∈ s.files, f.data.length ≤ maxResourceBytes
  bytes : (s.files.map (fun f => f.data.length)).sum ≤ s.total
  total : s.total ≤ maxTotalResourceBytes

section
variable {files : List FoundFile} {file : FoundFile}

theorem mem_putFile {f : FoundFile} (h : f ∈ putFile files file) : f = file ∨ f ∈ files := by
  unfold putFile at h
  split at h
  · obtain ⟨g, hg, rfl⟩ := List.mem_map.1 h
    split
    · exact .inl rfl
    · exact .inr hg
  · rcases List.mem_append.1 h with h | h
    · exact .inr h
    · exact .inl (List.mem_singleton.1 h)

theorem putFile_paths : (putFile files file).map FoundFile.path =
    if files.any (fun f => f.path = file.path) then files.map FoundFile.path else files.map FoundFile.path ++ [file.path] := by
  unfold putFile
  split
  · rw [List.map_map]
    refine List.map_congr_left (fun f _ => ?_)
    rw [Function.comp_apply]
    split
    · rename_i hsame
      exact hsame.symm
    · rfl
  · rw [List.map_append]
    rfl

theorem putFile_nodup (h : (files.map FoundFile.path).Nodup) : ((putFile files file).map FoundFile.path).Nodup := by
  rw [putFile_paths]
  split
  · exact h
  · rename_i hnew
    refine List.nodup_append.2 ⟨h, List.nodup_singleton _, fun path hpath other hother hsame => hnew ?_⟩
    obtain ⟨f, hf, rfl⟩ := List.mem_map.1 hpath
    rw [List.mem_singleton] at hother
    exact List.any_eq_true.2 ⟨f, hf, decide_eq_true (hsame.trans hother)⟩

theorem putFile_length : (putFile files file).length ≤ files.length + 1 := by
  unfold putFile
  split
  · rw [List.length_map]
    exact Nat.le_succ _
  · rw [List.length_append, List.length_singleton]

/-- At most one file is replaced. -/
theorem replaced_bytes (h : (files.map FoundFile.path).Nodup) :
    ((files.map (fun f => if f.path = file.path then file else f)).map (fun f => f.data.length)).sum ≤
      (files.map (fun f => f.data.length)).sum + file.data.length := by
  induction files with
  | nil => exact Nat.zero_le _
  | cons f rest ih =>
    rw [List.map_cons, List.nodup_cons] at h
    simp only [List.map_cons, List.sum_cons]
    by_cases hsame : f.path = file.path
    · have hrest : rest.map (fun g => if g.path = file.path then file else g) = rest := by
        refine (List.map_congr_left (fun g hg => if_neg (fun hother => h.1 ?_))).trans (List.map_id _)
        exact hsame ▸ hother ▸ List.mem_map_of_mem hg
      rw [if_pos hsame, hrest]
      omega
    · rw [if_neg hsame]
      have := ih h.2
      omega

theorem putFile_bytes (h : (files.map FoundFile.path).Nodup) : ((putFile files file).map (fun f => f.data.length)).sum ≤
    (files.map (fun f => f.data.length)).sum + file.data.length := by
  unfold putFile
  split
  · exact replaced_bytes h
  · rw [List.map_append, List.sum_append, List.map_singleton, List.sum_singleton]

theorem checkLimits_ok {count size : ℕ} {name : String} {u : Unit} (h : checkLimits count name size = .ok u) :
    count ≤ maxResourceFiles ∧ size ≤ maxResourceBytes := by
  simp only [checkLimits, except_bind_ok_iff, ensure_ok_iff] at h
  obtain ⟨_, hcount, hsize⟩ := h
  exact ⟨hcount, hsize⟩

theorem takeFile_ok {what : String} {s s' : ReadSoFar} (hs : s.Ok) (hname : checkEntryName file.path = .ok file.path)
    (h : takeFile what s file = .ok s') : s'.Ok := by
  simp only [takeFile, except_bind_ok_iff, ensure_ok_iff, except_pure_ok_iff] at h
  obtain ⟨_, hlimits, _, htotal, rfl⟩ := h
  obtain ⟨hcount, hsize⟩ := checkLimits_ok hlimits
  exact {
    names := fun f hf => (mem_putFile hf).elim (fun hnew => hnew ▸ hname) (hs.names f)
    once := putFile_nodup hs.once
    count := putFile_length.trans hcount
    sizes := fun f hf => (mem_putFile hf).elim (fun hnew => hnew ▸ hsize) (hs.sizes f)
    bytes := (putFile_bytes hs.once).trans (Nat.add_le_add_right hs.bytes _)
    total := htotal }

end

theorem checkEntryName_ok {name checked : String} (h : checkEntryName name = .ok checked) : checked = name := by
  simp only [checkEntryName, except_bind_ok_iff, except_pure_ok_iff] at h
  obtain ⟨_, _, _, _, _, _, _, _, _, _, rfl⟩ := h
  rfl

theorem empty_ok : ({} : ReadSoFar).Ok where
  names := nofun
  once := List.nodup_nil
  count := Nat.zero_le _
  sizes := nofun
  bytes := Nat.zero_le _
  total := Nat.zero_le _

theorem ReadSoFar.Ok.bounded {s : ReadSoFar} (h : s.Ok) : Bounded s.files where
  names := h.names
  once := h.once
  count := h.count
  sizes := h.sizes
  total := h.bytes.trans h.total

theorem visit_ok (s : ReadSoFar) (v : Visit) (s' : ReadSoFar) (hs : s.Ok) (h : visit s v = .ok s') : s'.Ok := by
  cases v with
  | folder path link =>
    simp only [visit, except_bind_ok_iff, except_pure_ok_iff] at h
    obtain ⟨_, _, rfl⟩ := h
    exact hs
  | file path link data mode =>
    simp only [visit, except_bind_ok_iff] at h
    obtain ⟨_, _, checked, hname, h⟩ := h
    have hsame := checkEntryName_ok hname
    exact takeFile_ok hs (hsame ▸ hname) h

theorem member_ok {inflate : Bytes → Option Bytes} {payload : Bytes} (s : ReadSoFar) (info : ZipInfo) (s' : ReadSoFar) (hs : s.Ok)
    (h : member inflate payload s info = .ok s') : s'.Ok := by
  simp only [member, except_bind_ok_iff] at h
  obtain ⟨checked, hname, _, _, data, _, h⟩ := h
  have hsame := checkEntryName_ok hname
  refine takeFile_ok hs ?_ h
  show checkEntryName checked = .ok checked
  rw [hsame] at hname ⊢
  exact hname

/-- What is read of a source keeps the limits. -/
theorem readSource_bounded {inflate : Bytes → Option Bytes} {source : Source} {files : List FoundFile}
    (h : readSource inflate source = .ok files) : Bounded files := by
  cases source with
  | missing => cases h
  | other => cases h
  | directory visits =>
    obtain ⟨s, hs, h⟩ := except_bind_ok_iff.1 h
    cases h
    exact (foldlM_keeps visit_ok empty_ok hs).bounded
  | archive archive =>
    simp only [readSource, readArchive, except_bind_ok_iff] at h
    obtain ⟨_, _, h⟩ := h
    split at h
    · cases h
    · simp only [except_bind_ok_iff, except_pure_ok_iff] at h
      obtain ⟨_, _, _, _, s, hs, rfl⟩ := h
      exact (foldlM_keeps member_ok empty_ok hs).bounded

end Motte.Skill
