import Mathlib.Algebra.Order.BigOperators.Group.List
import Motte.Skill.Import

/-! What an import lets in.

A file whose suffix stands for a text is taken for a text, whatever its bytes are, and a
suffix that stands for a program is seen only in small letters. An import keeps out archives,
binaries and undeclared programs exactly when no file makes use of either. -/
namespace Motte.Skill
open Foundation

/-- The file can be run: a mode bit, its first two bytes, or its suffix in any letter case. -/
def CanRun (lib : Library) (file : FoundFile) : Prop :=
  file.executable = true ∨ file.data.take 2 = [0x23, 0x21] ∨ endsWithAny file.path executableSuffixes = true ∨
    endsWithAny (lib.lower file.path) executableSuffixes = true

/-- The bytes start with the signature of an archive or of a native binary. -/
def Disguised (data : Bytes) : Prop := ∃ entry ∈ archiveMagic ++ nativeBinaryMagic, entry.1 <+: data

/-- The files of a source without its manifest, and what the manifest declares of them. -/
structure ReadAs (lib : Library) (source : Source) (licence : Option String) (files : List FoundFile)
    (declarations : List (String × Manifest)) : Prop where
  read : ∃ found manifest, readSource lib.inflate source = .ok found ∧ readManifest lib found licence = .ok (manifest, files) ∧
    resourceDeclarations lib manifest = .ok declarations

/-- The files that an import has taken are what they are declared to be. -/
structure Sound (lib : Library) (files : List FoundFile) (declarations : List (String × Manifest)) (report : SkillImportReport) : Prop where
  taken : (report.resources.map (fun r => (r.path, r.data))).Perm (files.map (fun f => (f.path, f.data)))
  plain : ∀ r ∈ report.resources, ¬Disguised r.data
  declared : ∀ f ∈ files, CanRun lib f → declaredExecutable declarations f.path = true ∧ report.kind = "executable"
  present : ∀ declaration ∈ declarations, ∃ r ∈ report.resources, r.path = declaration.1 ∧ r.sha256 = "sha256:" ++ lib.sha256 r.data ∧
    (get declaration.2 "sha256" = .null ∨ get declaration.2 "sha256" = .str r.sha256)
  listed : declarations ≠ [] → ∀ r ∈ report.resources, r.path ∈ declarations.map Prod.fst
  paths : ∀ r ∈ report.resources, r.path.toList.head? ≠ some '/' ∧ hasDriveLetter r.path = false ∧
    ∀ segment ∈ segments r.path, segment ∉ ["", ".", ".."]
  count : report.resources.length ≤ maxResourceFiles
  sizes : ∀ r ∈ report.resources, r.data.length ≤ maxResourceBytes
  total : (report.resources.map (fun r => r.data.length)).sum ≤ maxTotalResourceBytes

/-- No text suffix stands before bytes of another kind, and no suffix of a program is hidden by large letters. -/
structure Undisguised (lib : Library) (files : List FoundFile) (declarations : List (String × Manifest)) : Prop where
  texts : ∀ f ∈ files, declaredMediaType lib f.path ≠ none → ¬Disguised f.data
  suffixes : ∀ f ∈ files, endsWithAny (lib.lower f.path) executableSuffixes = true → endsWithAny f.path executableSuffixes = false →
    declaredExecutable declarations f.path = true

/-! ### One file -/

section
variable {lib : Library} {declarations : List (String × Manifest)} {kind : String} {file : FoundFile} {r : ImportedResource}

/-- Eight bytes are enough to see a signature. -/
theorem signature_eq_none_iff {magic : List (Bytes × String)} (hshort : ∀ entry ∈ magic, entry.1.length ≤ 8) {data : Bytes} :
    signature magic data = none ↔ ∀ entry ∈ magic, ¬entry.1 <+: data := by
  unfold signature
  rw [Option.map_eq_none_iff, List.find?_eq_none]
  refine forall₂_congr fun entry hentry => not_congr ?_
  rw [List.isPrefixOf_iff_prefix, List.prefix_take_iff]
  exact and_iff_left (hshort entry hentry)

theorem magic_short : ∀ entry ∈ archiveMagic ++ nativeBinaryMagic, entry.1.length ≤ 8 := by decide

/-- What is taken over of a file. -/
structure Taken (lib : Library) (declarations : List (String × Manifest)) (kind : String) (file : FoundFile) (r : ImportedResource) : Prop where
  path : r.path = file.path
  data : r.data = file.data
  digest : r.sha256 = "sha256:" ++ lib.sha256 file.data
  listed : declarations = [] ∨ file.path ∈ declarations.map Prod.fst
  noArchive : mediaTypeFor lib file.path file.data ∉ archiveMediaTypes
  noBinary : mediaTypeFor lib file.path file.data ∉ nativeBinaryMediaTypes
  declared : looksExecutable file = true → declaredExecutable declarations file.path = true
  permitted : declaredExecutable declarations file.path = true → kind = "executable"
  hash : get ((declarations.lookup file.path).getD []) "sha256" = .null ∨ get ((declarations.lookup file.path).getD []) "sha256" = .str r.sha256

theorem readResource_taken (h : readResource lib declarations kind file = .ok r) : Taken lib declarations kind file r := by
  simp only [readResource, except_bind_ok_iff, ensure_ok_iff, except_pure_ok_iff] at h
  obtain ⟨_, _, _, hlisted, _, harchive, _, hbinary, _, _, _, hexecutable, _, hpermitted, _, hhash, rfl⟩ := h
  exact {
    path := rfl
    data := rfl
    digest := rfl
    listed := hlisted
    noArchive := harchive
    noBinary := hbinary
    declared := fun hlooks => by
      rcases hexecutable with hneither | hdeclared
      · rw [hlooks, Bool.or_true] at hneither
        cases hneither
      · exact hdeclared
    permitted := fun hdeclared => by
      rcases hpermitted with hnot | hkind
      · rw [hdeclared] at hnot
        cases hnot
      · exact hkind
    hash := hhash }

/-- A file without a text suffix is known by its signature. -/
theorem Taken.undisguised (h : Taken lib declarations kind file r) (hsuffix : declaredMediaType lib file.path = none) : ¬Disguised file.data := by
  have harchive := h.noArchive
  have hbinary := h.noBinary
  unfold mediaTypeFor at harchive hbinary
  rw [hsuffix] at harchive hbinary
  simp only at harchive hbinary
  have found {magic : List (Bytes × String)} {media : String} (hm : signature magic file.data = some media) : media ∈ magic.map Prod.snd := by
    obtain ⟨entry, hentry, rfl⟩ := Option.map_eq_some_iff.1 hm
    exact List.mem_map_of_mem (List.mem_of_find?_eq_some hentry)
  rintro ⟨entry, hentry, hprefix⟩
  cases ha : signature archiveMagic file.data with
  | some media =>
    rw [ha] at harchive
    exact harchive (found ha)
  | none =>
    rw [ha] at hbinary
    simp only at hbinary
    cases hn : signature nativeBinaryMagic file.data with
    | some media =>
      rw [hn] at hbinary
      exact hbinary (found hn)
    | none =>
      rcases List.mem_append.1 hentry with hmem | hmem
      · exact (signature_eq_none_iff (fun e he => magic_short e (List.mem_append_left _ he))).1 ha entry hmem hprefix
      · exact (signature_eq_none_iff (fun e he => magic_short e (List.mem_append_right _ he))).1 hn entry hmem hprefix

end

/-! ### All files -/

section
variable {lib : Library} {draftProblem : SkillDraft → Option String} {source : Source} {licence : Option String} {files : List FoundFile}
  {declarations : List (String × Manifest)} {report : SkillImportReport}

/-- The manifest is not among the resources. -/
theorem readManifest_files {found : List FoundFile} {manifest : Manifest} (h : readManifest lib found licence = .ok (manifest, files)) :
    files = found.filter (fun f => f.path ≠ skillManifestName) := by
  unfold readManifest at h
  cases hfile : found.find? (fun f => f.path = skillManifestName) with
  | none =>
    rw [hfile] at h
    cases h
  | some file =>
    rw [hfile] at h
    obtain ⟨_, _, h⟩ := except_bind_ok_iff.1 h
    obtain ⟨payload, _, h⟩ := except_bind_ok_iff.1 h
    split at h
    · simp only [except_bind_ok_iff, except_pure_ok_iff] at h
      obtain ⟨_, _, _, _, hpair⟩ := h
      exact (Prod.mk.inj hpair).2.symm
    · cases h

/-- What an import that succeeds has done with the files. -/
theorem importSkill_ok (h : importSkill lib draftProblem source licence = .ok report) (hread : ReadAs lib source licence files declarations) :
    Bounded files ∧ (∀ declaration ∈ declarations, declaration.1 ∈ files.map FoundFile.path) ∧
      List.Forall₂ (Taken lib declarations report.kind) (files.insertionSort (fun f g => f.path ≤ g.path)) report.resources := by
  obtain ⟨found, manifest, hfound, hmanifest, hdeclarations⟩ := hread.read
  simp only [importSkill, except_bind_ok_iff, except_pure_ok_iff] at h
  obtain ⟨found', hfound', ⟨manifest', files'⟩, hmanifest', h⟩ := h
  cases hfound.symm.trans hfound'
  cases hmanifest.symm.trans hmanifest'
  obtain ⟨_, _, _, _, kind, _, _, _, _, _, _, _, resources, hresources, _, _, _, _, rfl⟩ := h
  simp only [readResources, except_bind_ok_iff, ensure_ok_iff] at hresources
  obtain ⟨declarations', hdeclarations', _, hmissing, hresources⟩ := hresources
  cases hdeclarations.symm.trans hdeclarations'
  refine ⟨?_, fun declaration hdeclaration => ?_, (mapM_ok hresources).imp (fun _ _ hr => readResource_taken hr)⟩
  · have hbounded := readSource_bounded hfound
    have hsub : files.Sublist found := readManifest_files hmanifest ▸ List.filter_sublist
    exact {
      names := fun f hf => hbounded.names f (hsub.subset hf)
      once := hbounded.once.sublist (hsub.map _)
      count := hsub.length_le.trans hbounded.count
      sizes := fun f hf => hbounded.sizes f (hsub.subset hf)
      total := (List.Sublist.sum_le_sum (hsub.map _) (fun _ _ => Nat.zero_le _)).trans hbounded.total }
  · have hnone : ((declarations.map Prod.fst).filter (· ∉ files.map FoundFile.path)) = [] := by
      rw [← List.length_eq_zero_iff, ← List.length_insertionSort (· ≤ ·), hmissing, List.length_nil]
    have hall := List.filter_eq_nil_iff.1 hnone declaration.1 (List.mem_map_of_mem hdeclaration)
    simpa using hall

theorem checkEntryName_paths {name : String} (h : checkEntryName name = .ok name) :
    name.toList.head? ≠ some '/' ∧ hasDriveLetter name = false ∧ ∀ segment ∈ segments name, segment ∉ ["", ".", ".."] := by
  simp only [checkEntryName, except_bind_ok_iff, ensure_ok_iff] at h
  obtain ⟨_, _, _, _, _, ⟨hroot, hdrive⟩, _, hsegments, _⟩ := h
  exact ⟨hroot, hdrive, hsegments⟩

/-- The declaration of a name is the one that is looked up. -/
theorem declare_nodup {declarations declarations' : List (String × Manifest)} {item : Value}
    (hs : (declarations.map Prod.fst).Nodup) (h : declare lib declarations item = .ok declarations') :
    (declarations'.map Prod.fst).Nodup := by
  unfold declare at h
  split at h
  · simp only [except_bind_ok_iff, ensure_ok_iff, except_pure_ok_iff] at h
    obtain ⟨_, _, name, _, _, _, _, hnew, rfl⟩ := h
    rw [List.map_append]
    refine List.nodup_append.2 ⟨hs, List.nodup_singleton _, fun path hpath other hother hsame => hnew ?_⟩
    have hname : path = name := hsame.trans (List.mem_singleton.1 hother)
    exact hname ▸ hpath
  · cases h

theorem resourceDeclarations_nodup {manifest : Manifest} (h : resourceDeclarations lib manifest = .ok declarations) :
    (declarations.map Prod.fst).Nodup := by
  unfold resourceDeclarations at h
  split at h
  · cases h
    exact List.nodup_nil
  · exact foldlM_keeps (P := fun declarations => (declarations.map Prod.fst).Nodup) (fun _ _ _ hs h => declare_nodup hs h) List.nodup_nil h
  · cases h

theorem lookup_of_mem {entries : List (String × Manifest)} (h : (entries.map Prod.fst).Nodup) {entry : String × Manifest} (hmem : entry ∈ entries) :
    entries.lookup entry.1 = some entry.2 := by
  induction entries with
  | nil => cases hmem
  | cons first rest ih =>
    rw [List.map_cons, List.nodup_cons] at h
    rcases List.mem_cons.1 hmem with rfl | hmem
    · exact List.lookup_cons_self
    · have hne : (entry.1 == first.1) = false :=
        beq_eq_false_iff_ne.2 (fun hsame => h.1 (hsame ▸ List.mem_map_of_mem hmem))
      rw [List.lookup_cons, hne]
      exact ih h.2 hmem

/-- An import lets in only what is declared, if and only if nothing is disguised. -/
theorem sound_iff (h : importSkill lib draftProblem source licence = .ok report) (hread : ReadAs lib source licence files declarations) :
    Sound lib files declarations report ↔ Undisguised lib files declarations := by
  obtain ⟨hbounded, hpresent, htaken⟩ := importSkill_ok h hread
  have hperm : (files.insertionSort (fun f g => f.path ≤ g.path)).Perm files := List.perm_insertionSort _ _
  -- Each file has its resource, and each resource its file.
  have resource {f : FoundFile} (hf : f ∈ files) : ∃ r ∈ report.resources, Taken lib declarations report.kind f r :=
    exists_of_forall₂ htaken (hperm.mem_iff.2 hf)
  have source_ {r : ImportedResource} (hr : r ∈ report.resources) : ∃ f ∈ files, Taken lib declarations report.kind f r := by
    obtain ⟨f, hf, htaken⟩ := exists_of_forall₂ htaken.flip hr
    exact ⟨f, hperm.mem_iff.1 hf, htaken⟩
  have hpairs : (report.resources.map (fun r => (r.path, r.data))).Perm (files.map (fun f => (f.path, f.data))) := by
    have hsame : (files.insertionSort (fun f g => f.path ≤ g.path)).map (fun f => (f.path, f.data)) =
        report.resources.map (fun r => (r.path, r.data)) := by
      refine List.forall₂_eq_eq_eq ▸ List.forall₂_map_left_iff.2 (List.forall₂_map_right_iff.2 (htaken.imp (fun f r ht => ?_)))
      rw [ht.path, ht.data]
    exact hsame ▸ hperm.map _
  constructor
  · intro hsound
    refine ⟨fun f hf _ => ?_, fun f hf hlarge _ => (hsound.declared f hf (.inr (.inr (.inr hlarge)))).1⟩
    obtain ⟨r, hr, htaken⟩ := resource hf
    exact htaken.data ▸ hsound.plain r hr
  · intro hplain
    exact {
      taken := hpairs
      plain := fun r hr => by
        obtain ⟨f, hf, htaken⟩ := source_ hr
        rw [htaken.data]
        by_cases hsuffix : declaredMediaType lib f.path = none
        · exact htaken.undisguised hsuffix
        · exact hplain.texts f hf hsuffix
      declared := fun f hf hrun => by
        obtain ⟨r, _, htaken⟩ := resource hf
        have hdeclared : declaredExecutable declarations f.path = true := by
          by_cases hlooks : looksExecutable f = true
          · exact htaken.declared hlooks
          · unfold looksExecutable at hlooks
            rw [Bool.or_eq_true, Bool.or_eq_true, decide_eq_true_eq, not_or, not_or] at hlooks
            obtain ⟨⟨hmode, hsmall⟩, hshebang⟩ := hlooks
            rcases hrun with hrun | hrun | hrun | hlarge
            · exact absurd hrun hmode
            · exact absurd hrun hshebang
            · exact absurd hrun hsmall
            · exact hplain.suffixes f hf hlarge (Bool.eq_false_iff.2 hsmall)
        exact ⟨hdeclared, htaken.permitted hdeclared⟩
      present := fun declaration hdeclaration => by
        obtain ⟨f, hf, hpath⟩ := List.mem_map.1 (hpresent declaration hdeclaration)
        obtain ⟨r, hr, htaken⟩ := resource hf
        obtain ⟨_, manifest, _, _, hdeclarations⟩ := hread.read
        have hlookup := lookup_of_mem (resourceDeclarations_nodup hdeclarations) hdeclaration
        have hhash := htaken.hash
        rw [hpath, hlookup] at hhash
        exact ⟨r, hr, htaken.path.trans hpath, htaken.data ▸ htaken.digest, hhash⟩
      listed := fun hsome r hr => by
        obtain ⟨f, hf, htaken⟩ := source_ hr
        exact htaken.path ▸ htaken.listed.resolve_left hsome
      paths := fun r hr => by
        obtain ⟨f, hf, htaken⟩ := source_ hr
        exact htaken.path ▸ checkEntryName_paths (hbounded.names f hf)
      count := by
        have hlength := hpairs.length_eq
        rw [List.length_map, List.length_map] at hlength
        exact hlength ▸ hbounded.count
      sizes := fun r hr => by
        obtain ⟨f, hf, htaken⟩ := source_ hr
        exact htaken.data ▸ hbounded.sizes f hf
      total := by
        have hsizes := (hpairs.map (fun entry => entry.2.length)).sum_eq
        rw [List.map_map, List.map_map] at hsizes
        exact hsizes.trans_le hbounded.total }

end

/-! ### A disguised archive -/

/-- The manifest of a skill that declares no resources. -/
def bareManifest : Manifest :=
  [("skill_id", .str "notes"), ("version", .str "1.0.0"), ("kind", .str "instruction_with_resources"), ("licence", .str "MIT"),
    ("instruction", .str "Read the notes.")]

def bareText : String :=
  "\x7b\"skill_id\":\"notes\",\"version\":\"1.0.0\",\"kind\":\"instruction_with_resources\",\"licence\":\"MIT\"," ++
    "\"instruction\":\"Read the notes.\"\x7d"

def bareBytes : Bytes := bareText.toList.map (fun c => c.toNat.toUInt8)

/-- A library that reads one manifest. -/
def bareLibrary : Library where
  lower text := String.ofList (text.toList.map Char.toLower)
  decode data :=
    if data.all (· < 128) then .ok (String.ofList (data.map (fun byte => Char.ofNat byte.toNat)))
    else .error "'utf-8' codec can't decode byte"
  loads text := if text = bareText then .ok (.obj bareManifest) else .error "Expecting value"
  sha256 _ := "8dcc7e601606217f3b754766511182a916b17e9a26a94c9d887104eba92e9bb2"
  inflate _ := none
  repr _ := ""
  isExactPin _ := true
  dependencyProblem _ := none

def zippedNotes : Source :=
  .directory [.file "notes.md" false [0x50, 0x4b, 0x03, 0x04] 0o644, .file "skill.json" false bareBytes 0o644]

def zippedFiles : List FoundFile := [{ path := "notes.md", data := [0x50, 0x4b, 0x03, 0x04], executable := false }]

theorem zippedNotes_read : ReadAs bareLibrary zippedNotes none zippedFiles [] :=
  ⟨[{ path := "notes.md", data := [0x50, 0x4b, 0x03, 0x04], executable := false },
    { path := "skill.json", data := bareBytes, executable := false }], bareManifest, by decide +kernel, by decide +kernel, rfl⟩

theorem zippedNotes_imported : ∃ report, importSkill bareLibrary (fun _ => none) zippedNotes none = .ok report := by
  have hok : (importSkill bareLibrary (fun _ => none) zippedNotes none).isOk = true := by decide +kernel
  cases h : importSkill bareLibrary (fun _ => none) zippedNotes none with
  | ok report => exact ⟨report, rfl⟩
  | error e =>
    rw [h] at hok
    cases hok

theorem sound_iff_zipped : ∃ report, importSkill bareLibrary (fun _ => none) zippedNotes none = .ok report ∧
    (Sound bareLibrary zippedFiles [] report ↔ Undisguised bareLibrary zippedFiles []) := by
  obtain ⟨report, h⟩ := zippedNotes_imported
  exact ⟨report, h, sound_iff h zippedNotes_read⟩

/-- An archive whose name ends as a text does is imported. -/
theorem archive_imported : ¬∀ lib draftProblem source licence report files declarations,
    importSkill lib draftProblem source licence = .ok report → ReadAs lib source licence files declarations →
    Sound lib files declarations report := by
  intro hall
  obtain ⟨report, h⟩ := zippedNotes_imported
  have hsound := hall _ _ _ _ _ _ _ h zippedNotes_read
  have hpair := hsound.taken.mem_iff.2 (List.mem_singleton_self ("notes.md", ([0x50, 0x4b, 0x03, 0x04] : Bytes)))
  obtain ⟨r, hr, hdata⟩ := List.mem_map.1 hpair
  refine hsound.plain r hr ⟨([0x50, 0x4b, 0x03, 0x04], "application/zip"), by decide, ?_⟩
  exact (Prod.mk.inj hdata).2 ▸ List.prefix_refl _

end Motte.Skill
