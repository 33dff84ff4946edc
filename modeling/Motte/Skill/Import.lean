import Mathlib.Data.List.Dedup
import Mathlib.Data.List.Sort
import Motte.Skill.Source

/-! Importing a skill.

The manifest of a source declares what the skill is and which of its files are resources.
Each file is classified by its name and its bytes, refused or taken as a resource. -/
namespace Motte.Skill
open Foundation

abbrev Manifest := List (String × Value)

/-- `manifest.get(key)` -/
def get (manifest : Manifest) (key : String) : Value := (manifest.lookup key).getD .null

/-- What is asked of the standard library, and of the checks of a draft and of its dependencies. -/
structure Library where
  lower : String → String
  decode : Bytes → Except String String
  loads : String → Except String Value
  sha256 : Bytes → String
  inflate : Bytes → Option Bytes
  repr : Value → String
  isExactPin : Value → Bool
  dependencyProblem : Manifest → Option String

def skillManifestName : String := "skill.json"

/-- `_MANIFEST_FIELDS` -/
def manifestFields : List String :=
  ["skill_id", "version", "kind", "description", "licence", "license", "instruction", "instruction_ref", "resources",
    "dependencies", "requested_permissions", "input_schema", "output_schema", "fixture_refs", "injection_mode", "entrypoint"]

/-- `_DEFAULT_INJECTION_MODE` -/
def defaultInjectionMode : List (String × String) :=
  [("instruction", "system-prompt"), ("instruction_with_resources", "context-section"), ("executable", "none")]

/-- `_RESOURCE_FIELDS` -/
def resourceFields : List String := ["path", "executable", "sha256"]

def vendoredDirs : List String :=
  ["node_modules", ".venv", "venv", "virtualenv", "site-packages", "dist-packages", "__pypackages__", ".tox", "bower_components",
    ".pnpm-store", ".yarn"]

def credentialDirs : List String := [".ssh", ".aws", ".azure", ".gnupg", ".kube", ".docker"]

def credentialNames : List String :=
  [".env", ".netrc", "_netrc", ".npmrc", ".pypirc", ".git-credentials", ".dockercfg", ".htpasswd", "credentials", "id_rsa",
    "id_dsa", "id_ecdsa", "id_ed25519", "kubeconfig"]

def credentialSuffixes : List String := [".pem", ".key", ".pfx", ".p12", ".jks", ".keystore", ".ppk"]

def executableSuffixes : List String :=
  [".sh", ".bash", ".ps1", ".bat", ".cmd", ".exe", ".dll", ".so", ".dylib", ".com", ".msi", ".run", ".jar"]

def installHookNames : List String := ["setup.py", "postinstall.js", "preinstall.js", "install.js"]

/-- `_TEXT_MEDIA_TYPES` -/
def textMediaTypes : List (String × String) :=
  [(".md", "text/markdown"), (".markdown", "text/markdown"), (".txt", "text/plain"), (".json", "application/json"),
    (".jsonl", "application/x-ndjson"), (".yaml", "application/yaml"), (".yml", "application/yaml"), (".toml", "application/toml"),
    (".csv", "text/csv"), (".tsv", "text/tab-separated-values"), (".py", "text/x-python"), (".js", "text/javascript"),
    (".mjs", "text/javascript"), (".cjs", "text/javascript"), (".ts", "text/typescript"), (".sh", "text/x-shellscript"),
    (".ps1", "text/x-powershell"), (".bat", "text/x-batch"), (".html", "text/html"), (".htm", "text/html"), (".css", "text/css"),
    (".sql", "application/sql"), (".xml", "application/xml"), (".ini", "text/plain"), (".cfg", "text/plain"), (".conf", "text/plain"),
    (".diff", "text/x-diff"), (".patch", "text/x-diff"), (".rst", "text/x-rst"), (".lua", "text/x-lua"), (".rb", "text/x-ruby"),
    (".pl", "text/x-perl"), (".vbs", "text/x-vbscript")]

/-- `_ARCHIVE_MAGIC` -/
def archiveMagic : List (Bytes × String) :=
  [([0x50, 0x4b, 0x03, 0x04], "application/zip"), ([0x50, 0x4b, 0x05, 0x06], "application/zip"), ([0x1f, 0x8b], "application/gzip"),
    ([0x37, 0x7a, 0xbc, 0xaf, 0x27, 0x1c], "application/x-7z-compressed"), ([0x42, 0x5a, 0x68], "application/x-bzip2"),
    ([0xfd, 0x37, 0x7a, 0x58, 0x5a], "application/x-xz")]

/-- `_NATIVE_BINARY_MAGIC` -/
def nativeBinaryMagic : List (Bytes × String) :=
  [([0x7f, 0x45, 0x4c, 0x46], "application/x-elf"), ([0x4d, 0x5a], "application/x-dosexec"),
    ([0xca, 0xfe, 0xba, 0xbe], "application/x-mach-o"), ([0xfe, 0xed, 0xfa, 0xce], "application/x-mach-o"),
    ([0xfe, 0xed, 0xfa, 0xcf], "application/x-mach-o"), ([0xcf, 0xfa, 0xed, 0xfe], "application/x-mach-o")]

/-- `_KNOWN_BINARY_MAGIC` -/
def knownBinaryMagic : List (Bytes × String) :=
  [([0x89, 0x50, 0x4e, 0x47, 0x0d, 0x0a, 0x1a, 0x0a], "image/png"), ([0xff, 0xd8, 0xff], "image/jpeg"),
    ([0x47, 0x49, 0x46, 0x38, 0x37, 0x61], "image/gif"), ([0x47, 0x49, 0x46, 0x38, 0x39, 0x61], "image/gif"),
    ([0x25, 0x50, 0x44, 0x46, 0x2d], "application/pdf"), ([0x4f, 0x54, 0x54, 0x4f], "font/otf"),
    ([0x00, 0x01, 0x00, 0x00], "font/ttf")]

def archiveMediaTypes : List String := archiveMagic.map Prod.snd

def nativeBinaryMediaTypes : List String := nativeBinaryMagic.map Prod.snd

/-- `name.endswith(suffixes)` -/
def endsWithAny (name : String) (suffixes : List String) : Bool := suffixes.any (fun suffix => suffix.toList.isSuffixOf name.toList)

/-- `name.rsplit("/", 1)[-1]` -/
def basename (name : String) : String := (segments name).getLast?.getD ""

section
variable (lib : Library)

/-! ### Files -/

/-- `_check_forbidden_path` -/
def checkForbiddenPath (name : String) : Except SkillImportError Unit := do
  let lowered := (segments name).map lib.lower
  let refuse (code : SkillImportCode) (message : String) : Except SkillImportError Unit := .error { code, message, path := some name }
  match lowered.find? (fun segment => segment ∈ vendoredDirs ++ credentialDirs) with
  | some segment =>
    if segment ∈ vendoredDirs then refuse .vendoredDependency "vendored dependency directories are not skill resources"
    else refuse .credentialsArtifact "host credential directories are not skill resources"
  | none =>
    let base := lowered.getLast?.getD ""
    if base ∈ credentialNames ∨ ".env".toList <+: base.toList then
      refuse .credentialsArtifact "host credential files are not skill resources"
    else if endsWithAny base credentialSuffixes then refuse .credentialsArtifact "key material is not a skill resource"
    else return ()

/-- The media type of a suffix that stands for a text. -/
def declaredMediaType (name : String) : Option String :=
  let base := (basename name).toList
  if '.' ∈ base then
    let suffix := lib.lower (String.ofList ((base.splitOn '.').getLast?.getD []))
    if suffix = "" then none else textMediaTypes.lookup ("." ++ suffix)
  else none

/-- `_decodes_utf8` -/
def decodesUtf8 (data : Bytes) : Bool := (lib.decode data).isOk

/-- The media type of the first signature that the bytes start with. -/
def signature (magic : List (Bytes × String)) (data : Bytes) : Option String :=
  (magic.find? (fun entry => entry.1.isPrefixOf (data.take 8))).map Prod.snd

/-- `_media_type_for` -/
def mediaTypeFor (name : String) (data : Bytes) : String :=
  match declaredMediaType lib name with
  | some declared => declared
  | none =>
    match signature archiveMagic data with
    | some media => media
    | none => match signature nativeBinaryMagic data with
      | some media => media
      | none => match signature knownBinaryMagic data with
        | some media => media
        | none => if 0x00 ∉ data.take 4096 ∧ decodesUtf8 lib data then "text/plain" else "application/octet-stream"

/-! ### Declarations -/

/-- `_check_entry_name` -/
def checkName : Value → Except SkillImportError String
  | .str name => checkEntryName name
  | _ => .error { code := .pathTraversal, message := "empty or padded resource path" }

/-- A manifest that is refused. -/
def invalid (message : String) : SkillImportError := { code := .manifestInvalid, message }

/-- The keys that are not among the fields, in order. -/
def unknownFields (members : Manifest) (fields : List String) : List String :=
  ((members.map Prod.fst).filter (· ∉ fields)).dedup.insertionSort (· ≤ ·)

/-- `repr` of a list of texts. -/
def reprTexts (texts : List String) : String := lib.repr (.arr (texts.map .str))

/-- One more declaration. -/
def declare (declarations : List (String × Manifest)) (item : Value) : Except SkillImportError (List (String × Manifest)) :=
  match item with
  | .obj members => do
    ensure (unknownFields members resourceFields = [])
      (invalid ("unknown resource declaration fields: " ++ reprTexts lib (unknownFields members resourceFields)))
    let name ← checkName (get members "path")
    ensure (name ≠ skillManifestName) (invalid (skillManifestName ++ " is not a resource"))
    ensure (name ∉ declarations.map Prod.fst) (invalid ("duplicate resource declaration: " ++ name))
    return declarations ++ [(name, members)]
  | _ => .error (invalid "each resource declaration must be an object")

/-- `_resource_declarations` -/
def resourceDeclarations (manifest : Manifest) : Except SkillImportError (List (String × Manifest)) :=
  match get manifest "resources" with
  | .null => .ok []
  | .arr items => items.foldlM (declare lib) []
  | _ => .error (invalid "resources must be a list")

/-! ### Resources -/

/-- `ImportedResource` -/
structure ImportedResource where
  path : String
  sha256 : String
  sizeBytes : ℕ
  mediaType : String
  executable : Bool
  data : Bytes
deriving DecidableEq

/-- The file is declared to be executable. -/
def declaredExecutable (declarations : List (String × Manifest)) (name : String) : Bool :=
  (get ((declarations.lookup name).getD []) "executable").truthy

/-- The file looks executable: a mode bit, its suffix, or its first two bytes. -/
def looksExecutable (file : FoundFile) : Bool :=
  file.executable || endsWithAny file.path executableSuffixes || file.data.take 2 = [0x23, 0x21]

/-- The body of the loop of `_read_resources` -/
def readResource (declarations : List (String × Manifest)) (kind : String) (file : FoundFile) : Except SkillImportError ImportedResource := do
  let name := file.path
  checkForbiddenPath lib name
  ensure (declarations = [] ∨ name ∈ declarations.map Prod.fst) {
    code := .undeclaredResource, message := "source file is not listed in the declared resources", path := name }
  let declared := declaredExecutable declarations name
  let mediaType := mediaTypeFor lib name file.data
  ensure (mediaType ∉ archiveMediaTypes) {
    code := .nestedArchive, message := "nested archives are not skill resources", path := name }
  ensure (mediaType ∉ nativeBinaryMediaTypes) {
    code := .unknownBinary, message := "host binaries are not skill resources", path := name }
  ensure (mediaType ≠ "application/octet-stream") {
    code := .unknownBinary, message := "unrecognised binary is not a skill resource", path := name }
  let executable := declared || looksExecutable file
  ensure (executable = false ∨ declared = true) {
    code := .undeclaredExecutable, message := "executable files must be declared explicitly in resources", path := name }
  ensure (declared = false ∨ kind = "executable") {
    code := .executableNotPermitted, message := "only executable skills may declare executable resources", path := name }
  let digest := "sha256:" ++ lib.sha256 file.data
  let expected := get ((declarations.lookup name).getD []) "sha256"
  ensure (expected = .null ∨ expected = .str digest) {
    code := .resourceHashMismatch, message := "resource bytes do not match the declared sha256", path := name }
  return { path := name, sha256 := digest, sizeBytes := file.data.length, mediaType, executable, data := file.data }

/-- `_read_resources` -/
def readResources (files : List FoundFile) (manifest : Manifest) (kind : String) : Except SkillImportError (List ImportedResource) := do
  let declarations ← resourceDeclarations lib manifest
  let missing := ((declarations.map Prod.fst).filter (· ∉ files.map FoundFile.path)).insertionSort (· ≤ ·)
  ensure (missing = []) {
    code := .declaredResourceMissing, message := "declared resources are absent from the source: " ++ reprTexts lib missing }
  (files.insertionSort (fun f g => f.path ≤ g.path)).mapM (readResource lib declarations kind)

/-! ### Manifests -/

/-- `_read_manifest`; the manifest is taken out of the files. -/
def readManifest (files : List FoundFile) (licence : Option String) : Except SkillImportError (Manifest × List FoundFile) := do
  let file ← match files.find? (fun f => f.path = skillManifestName) with
    | none => .error { code := .manifestMissing, message := "skill source has no " ++ skillManifestName }
    | some file => .ok file
  let payload ← (lib.decode file.data >>= lib.loads).mapError
    (fun error => invalid (skillManifestName ++ " is not valid JSON: " ++ error))
  match payload with
  | .obj manifest =>
    ensure (unknownFields manifest manifestFields = [])
      (invalid ("unknown " ++ skillManifestName ++ " fields: " ++ reprTexts lib (unknownFields manifest manifestFields)))
    let declared := (manifest.lookup "licence").getD (get manifest "license")
    ensure (∀ text ∈ licence, declared = .null ∨ declared = .str text)
      (invalid "explicit licence argument contradicts the source manifest")
    return (manifest, files.filter (fun f => f.path ≠ skillManifestName))
  | _ => .error (invalid (skillManifestName ++ " must be a JSON object"))

/-- A text that is not empty and not padded. -/
def plainText? : Value → Option String
  | .str text => if text ≠ "" ∧ padded text = false then some text else none
  | _ => none

/-- `_require_text` -/
def requireText (manifest : Manifest) (field : String) : Except SkillImportError String :=
  match plainText? (get manifest field) with
  | some text => .ok text
  | none => .error (invalid (field ++ " must be a non-empty string"))

/-- `_licence_of` -/
def licenceOf (manifest : Manifest) (licence : Option String) : Except SkillImportError String := do
  let declared := get manifest "licence"
  let american := get manifest "license"
  ensure (declared = .null ∨ american = .null ∨ declared.equals american) (invalid "licence and license must not disagree")
  let value := if declared.truthy then declared else if american.truthy then american else licence.elim .null .str
  match plainText? value with
  | some text => return text
  | none => .error { code := .licenceMissing, message := "skill sources must declare a licence (skill.json licence or licence=...)" }

/-- One dependency. -/
def readDependency : Value → Except SkillImportError Manifest
  | .obj item => do
    ensure (lib.isExactPin (get item "version")) {
      code := .unpinnedDependency
      message := "dependency " ++ lib.repr (get item "name") ++ " is not pinned to an exact version: " ++ lib.repr (get item "version") }
    match lib.dependencyProblem item with
    | some problem => .error (invalid ("invalid dependency: " ++ problem))
    | none => return item
  | _ => .error (invalid "each dependency must be an object")

/-- `_read_dependencies` -/
def readDependencies (manifest : Manifest) : Except SkillImportError (List Manifest) :=
  match (manifest.lookup "dependencies").getD (.arr []) with
  | .arr items => items.mapM (readDependency lib)
  | _ => .error (invalid "dependencies must be a list")

/-- The file is a package description with scripts that run at installation. -/
def hasInstallScripts (data : Bytes) : Bool :=
  match lib.decode data >>= lib.loads with
  | .ok (.obj payload) =>
    match get payload "scripts" with
    | .obj scripts => ["preinstall", "install", "postinstall"].any (fun key => (scripts.lookup key).isSome)
    | _ => false
  | _ => false

/-- What a file does at installation. -/
def hooksOf (file : FoundFile) : List String :=
  let base := lib.lower (basename file.path)
  (if '/' ∉ file.path.toList ∧ base ∈ installHookNames then [file.path] else []) ++
    (if base = "package.json" ∧ hasInstallScripts lib file.data then [file.path ++ "#scripts"] else [])

/-- `_detect_install_hooks` -/
def detectInstallHooks (files : List FoundFile) : List String :=
  (files.insertionSort (fun f g => f.path ≤ g.path)).flatMap (hooksOf lib)

/-! ### Drafts -/

/-- `SkillDraft`, before its fields are checked -/
structure SkillDraft where
  skillId : String
  version : String
  kind : String
  resources : List ImportedResource
  dependencies : List Manifest
  fields : List (String × Value)

/-- `_build_draft`, with the check of the draft. -/
def buildDraft (draftProblem : SkillDraft → Option String) (manifest : Manifest) (skillId version kind : String)
    (resources : List ImportedResource) (dependencies : List Manifest) : Except SkillImportError SkillDraft :=
  let orElse (key : String) (default : Value) := (key, (manifest.lookup key).getD default)
  let draft : SkillDraft := {
    skillId, version, kind, resources, dependencies
    fields := [orElse "description" .null, orElse "instruction" .null, orElse "instruction_ref" .null,
      orElse "requested_permissions" (.obj []), orElse "input_schema" (.obj []), orElse "output_schema" (.obj []),
      orElse "fixture_refs" (.arr []), orElse "injection_mode" (.str ((defaultInjectionMode.lookup kind).getD "")),
      orElse "entrypoint" .null] }
  match draftProblem draft with
  | some problem => .error (invalid ("skill manifest is not a valid draft: " ++ problem))
  | none => .ok draft

/-- `SkillImportReport` -/
structure SkillImportReport where
  skillId : String
  version : String
  kind : String
  licence : String
  resources : List ImportedResource
  dependencies : List Manifest
  draft : SkillDraft
  warnings : List String

/-- `import_skill` -/
def importSkill (draftProblem : SkillDraft → Option String) (source : Source) (licence : Option String) :
    Except SkillImportError SkillImportReport := do
  let found ← readSource lib.inflate source
  let (manifest, files) ← readManifest lib found licence
  let installHooks := detectInstallHooks lib files
  let skillId ← requireText manifest "skill_id"
  let version ← requireText manifest "version"
  let kind ← requireText manifest "kind"
  ensure (kind ∈ defaultInjectionMode.map Prod.fst) (invalid ("unknown skill kind: " ++ lib.repr (.str kind)))
  let licence ← licenceOf manifest licence
  let dependencies ← readDependencies lib manifest
  let resources ← readResources lib files manifest kind
  ensure (get manifest "instruction_ref" = .null ∨ get manifest "instruction_ref" ∈ resources.map (fun r => Value.str r.path)) {
    code := .instructionRefUndeclared, message := "instruction_ref must be one of the declared resources"
    path := some (match get manifest "instruction_ref" with
      | .str ref => ref
      | ref => lib.repr ref) }
  let draft ← buildDraft draftProblem manifest skillId version kind resources dependencies
  return {
    skillId, version, kind, licence, resources, dependencies, draft
    warnings := installHooks.map ("install_hook_not_executed:" ++ ·) }

end

end Motte.Skill
