import Icode.PurePath
import Icode.RepairFingerprint
import Icode.SandboxPolicy

/-!
# The wire format of a sandbox policy

`fromDict` (`SandboxPolicy.from_dict`) checks the fields and the types of a dict, and calls the
constructor with them. The constructor resolves and sorts what it gets; a policy it has made is
already resolved and sorted, so nothing changes on the way back (`fromDict_toDict`), and the dict
determines the policy (`toDict_injective`). `policy_wire` is both.

What the file system answers is a parameter: `FileSystem.Lawful` says that it resolves to absolute
paths, and a path that it has resolved to itself.
-/

namespace Icode

open Py PathTree

namespace SandboxPolicy

/-! ## Reading a dict -/

/-- `PolicyValidationError` of `from_dict`, by its message. -/
inductive WireError where
  /-- `sandbox policy wire must be a mapping` -/
  | mapping
  /-- `missing fields: {missing}; unknown={unknown}` -/
  | fields
  /-- `schema_version must be integer 1` -/
  | schemaVersion
  /-- `{name} must be a string` -/
  | notString (name : String)
  /-- `{name} must be a list` -/
  | notList (name : String)
  /-- `{name} items must be strings` -/
  | items (name : String)
  /-- `{name} must be an integer` -/
  | notInteger (name : String)
  /-- `unsupported network_mode: {value}` -/
  | networkMode (value : PyStr)
  /-- `workspace_root must be an absolute path`, `{name} items must be absolute paths` -/
  | notAbsolute (name : String)
  | policy (e : PolicyError)

/-- `{field.name for field in fields(cls)}` -/
def wireFields : List PyStr :=
  ["schema_version", "run_id", "ticket_id", "step", "workspace_root", "read_roots", "write_roots",
    "deny_read_roots", "deny_write_roots", "network_mode", "allowed_domains", "process_limit",
    "wall_timeout_seconds", "output_limit_bytes", "protected_paths"]

/-- A field that is a text. -/
def wireText (data : Members) (name : String) : Except WireError PyStr :=
  orRaise (data.get name).text? (.notString name)

/-- A field that is a list of texts. -/
def wireTexts (data : Members) (name : String) : Except WireError (List PyStr) :=
  match data.get name with
  | .arr xs => mapAll (fun x => orRaise x.text? (.items name)) xs
  | _ => throw (.notList name)

/-- A field that is an integer. -/
def wireInteger (data : Members) (name : String) : Except WireError ℤ :=
  match data.get name with
  | .int n => pure n
  | _ => throw (.notInteger name)

/-- `NetworkMode(value)` -/
def networkModeOf (value : PyStr) : Option NetworkMode :=
  if value = lit "deny" then some .deny
  else if value = lit "proxy_allowlist" then some .proxyAllowlist else none

/-- `Path(text).is_absolute()` -/
def isAbsolute (text : PyStr) : Bool :=
  text.head? == some (.scalar '/')

/-- The texts are absolute paths. -/
def requireAbsolute (texts : List PyStr) (name : String) : Except WireError Unit :=
  require (texts.all isAbsolute) (.notAbsolute name)

/-- `from_dict`. -/
def fromDict (fs : FileSystem) (data : Json) : Except WireError SandboxPolicy := do
  let data ← match data with
    | .obj data => pure data
    | _ => throw .mapping
  require (Members.keysAre data wireFields) .fields
  require (Members.get data "schema_version" |>.isExactly policySchemaVersion) .schemaVersion
  let runId ← wireText data "run_id"
  let ticketId ← wireText data "ticket_id"
  let step ← wireText data "step"
  let workspaceRoot ← wireText data "workspace_root"
  let readRoots ← wireTexts data "read_roots"
  let writeRoots ← wireTexts data "write_roots"
  let denyReadRoots ← wireTexts data "deny_read_roots"
  let denyWriteRoots ← wireTexts data "deny_write_roots"
  let protectedPaths ← wireTexts data "protected_paths"
  let allowedDomains ← wireTexts data "allowed_domains"
  let processLimit ← wireInteger data "process_limit"
  let wallTimeoutSeconds ← wireInteger data "wall_timeout_seconds"
  let outputLimitBytes ← wireInteger data "output_limit_bytes"
  let mode ← wireText data "network_mode"
  let networkMode ← orRaise (networkModeOf mode) (.networkMode mode)
  requireAbsolute [workspaceRoot] "workspace_root"
  requireAbsolute readRoots "read_roots"
  requireAbsolute writeRoots "write_roots"
  requireAbsolute denyReadRoots "deny_read_roots"
  requireAbsolute denyWriteRoots "deny_write_roots"
  requireAbsolute protectedPaths "protected_paths"
  let arguments : Arguments := {
    schemaVersion := policySchemaVersion, runId, ticketId, step, workspaceRoot, readRoots,
    writeRoots, denyReadRoots, denyWriteRoots, networkMode, allowedDomains, processLimit,
    wallTimeoutSeconds, outputLimitBytes, protectedPaths }
  (make fs arguments).mapError .policy

/-! ## What the constructor has made -/

/-- The components of a path are names. -/
def Clean (path : Path) : Prop :=
  ∀ part ∈ path, part ≠ [] ∧ .scalar '/' ∉ part

/-- The file system resolves to absolute paths, and a resolved path to itself. -/
structure FileSystem.Lawful (fs : FileSystem) : Prop where
  clean : ∀ text path, fs.resolve text = some path → Clean path
  idempotent : ∀ text path, fs.resolve text = some path → fs.resolve path.str = some path

/-- Resolved paths in order. -/
structure NormalPaths (fs : FileSystem) (paths : List Path) : Prop where
  resolved : ∀ path ∈ paths, fs.resolve path.str = some path
  nodup : paths.Nodup
  sorted : paths.Pairwise fun p q => strLe p.str q.str = true

/-- What the constructor has brought to its normal form. -/
structure Normal (fs : FileSystem) (p : SandboxPolicy) : Prop where
  root : fs.resolve p.workspaceRoot.str = some p.workspaceRoot
  lists : ∀ f ∈ p.pathLists, NormalPaths fs f.2
  domainsNodup : p.allowedDomains.Nodup
  domainsSorted : p.allowedDomains.Pairwise fun a b => strLe a b = true

theorem mem_of_mapAll {ε α β : Type} {f : α → Except ε β} {xs : List α} {ys : List β}
    (h : mapAll f xs = .ok ys) {y : β} (hy : y ∈ ys) : ∃ x ∈ xs, f x = .ok y := by
  induction xs generalizing ys with
  | nil =>
    cases h
    simp at hy
  | cons x xs ih =>
    rw [mapAll] at h
    split at h
    · cases h
    · rename_i z hz
      split at h
      · cases h
      · rename_i zs hzs
        obtain rfl := Except.ok.inj h
        rcases List.mem_cons.mp hy with rfl | hy
        · exact ⟨x, List.mem_cons_self, hz⟩
        · obtain ⟨w, hw, hfw⟩ := ih hzs hy
          exact ⟨w, List.mem_cons_of_mem _ hw, hfw⟩

section Sorting

variable {α : Type} (text : α → PyStr)

theorem pairwise_sortText (xs : List α) :
    (xs.insertionSort fun p q => strLe (text p) (text q) = true).Pairwise
      fun p q => strLe (text p) (text q) = true := by
  have : Std.Total fun p q => strLe (text p) (text q) = true := ⟨fun p q => strLe_total _ _⟩
  have : IsTrans α fun p q => strLe (text p) (text q) = true := ⟨fun _ _ _ => strLe_trans⟩
  exact List.pairwise_insertionSort _ xs

/-- Sorting and deduplicating again changes nothing. -/
theorem sort_dedup_eq_self [DecidableEq α] {xs : List α} (hnd : xs.Nodup)
    (hsorted : xs.Pairwise fun p q => strLe (text p) (text q) = true) :
    xs.dedup.insertionSort (fun p q => strLe (text p) (text q) = true) = xs := by
  rw [hnd.dedup, hsorted.insertionSort_eq]

end Sorting

theorem normalizePath_eq_ok {fs : FileSystem} {text : PyStr} {location : String} {p : Path}
    (h : normalizePath fs text location = .ok p) : fs.resolve text = some p := by
  unfold normalizePath at h
  simp only [bind_eq_ok] at h
  obtain ⟨-, -, h⟩ := h
  split at h
  · rename_i q hq
    rw [hq, ← Except.ok.inj h]
  · cases h

theorem normalPaths_of_normalizePaths {fs : FileSystem} (hfs : fs.Lawful) {texts : List PyStr}
    {location : String} {paths : List Path} (h : normalizePaths fs texts location = .ok paths) :
    NormalPaths fs paths := by
  unfold normalizePaths at h
  simp only [bind_eq_ok, pure, Except.pure, Except.ok.injEq] at h
  obtain ⟨normalized, hall, rfl⟩ := h
  refine ⟨fun path hpath => ?_, ?_, pairwise_sortText Path.str _⟩
  · rw [List.mem_insertionSort, List.mem_dedup] at hpath
    obtain ⟨text, -, htext⟩ := mem_of_mapAll hall hpath
    exact hfs.idempotent text path (normalizePath_eq_ok htext)
  · exact (List.perm_insertionSort _ _).nodup_iff.mpr (List.nodup_dedup _)

/-- What the constructor has made is in its normal form. -/
theorem normal_of_make {fs : FileSystem} (hfs : fs.Lawful) {a : Arguments} {p : SandboxPolicy}
    (h : make fs a = .ok p) : Normal fs p := by
  unfold make at h
  simp only [bind_eq_ok] at h
  obtain ⟨-, -, -, -, -, -, root, hroot, rd, hrd, wr, hwr, dr, hdr, dw, hdw, pr, hpr, h⟩ := h
  split at h
  · obtain rfl := Except.ok.inj h
    refine ⟨hfs.idempotent _ _ (normalizePath_eq_ok hroot), ?_,
      (List.perm_insertionSort _ _).nodup_iff.mpr (List.nodup_dedup _), pairwise_sortText id _⟩
    simp only [PolicyFields.pathLists, List.forall_mem_cons]
    exact ⟨normalPaths_of_normalizePaths hfs hrd, normalPaths_of_normalizePaths hfs hwr,
      normalPaths_of_normalizePaths hfs hdr, normalPaths_of_normalizePaths hfs hdw,
      normalPaths_of_normalizePaths hfs hpr, by simp⟩
  · cases h

/-! ## Domains in canonical spelling -/

theorem mem_splitDots {d : PyStr} {c : CodePoint} (h : c ∈ d) :
    c = .scalar '.' ∨ ∃ part ∈ splitDots d, c ∈ part := by
  induction d with
  | nil => simp at h
  | cons x d ih =>
    rw [splitDots]
    cases hparts : splitDots d with
    | nil =>
      cases d with
      | nil => simp [splitDots] at hparts
      | cons y d =>
        rw [splitDots] at hparts
        split at hparts
        · split_ifs at hparts
        · cases hparts
    | cons part parts =>
      rw [hparts] at ih
      dsimp only
      split_ifs with hx
      · rcases List.mem_cons.mp h with rfl | h
        · exact .inl hx
        · obtain hdot | ⟨q, hq, hc⟩ := ih h
          · exact .inl hdot
          · exact .inr ⟨q, List.mem_cons_of_mem _ hq, hc⟩
      · rcases List.mem_cons.mp h with rfl | h
        · exact .inr ⟨_, List.mem_cons_self, List.mem_cons_self⟩
        · obtain hdot | ⟨q, hq, hc⟩ := ih h
          · exact .inl hdot
          · rcases List.mem_cons.mp hq with rfl | hq
            · exact .inr ⟨_, List.mem_cons_self, List.mem_cons_of_mem _ hc⟩
            · exact .inr ⟨q, List.mem_cons_of_mem _ hq, hc⟩

theorem lowerAscii_of_ord {c : CodePoint} (h : ¬(65 ≤ c.ord ∧ c.ord ≤ 90)) : lowerAscii c = c :=
  if_neg h

/-- An exact host name is in lower case. -/
theorem map_lowerAscii {d : PyStr} (h : isExactDnsHostname' d = true) : d.map lowerAscii = d := by
  simp only [isExactDnsHostname', Bool.and_eq_true, List.all_eq_true] at h
  conv_rhs => rw [← List.map_id d]
  refine List.map_congr_left fun c hc => ?_
  refine lowerAscii_of_ord ?_
  rcases mem_splitDots hc with rfl | ⟨part, hpart, hc⟩
  · decide
  · have hlabel := h.2 part hpart
    simp only [isDnsLabel, Bool.and_eq_true, List.all_eq_true, Bool.or_eq_true,
      beq_iff_eq] at hlabel
    rcases hlabel.1.2 c hc with hchar | rfl
    · simp only [isLabelChar, Bool.or_eq_true, Bool.and_eq_true, decide_eq_true_eq] at hchar
      omega
    · decide

/-! ## The constructor again -/

/-- The arguments that give a policy again. -/
def argumentsOf (p : SandboxPolicy) : Arguments where
  schemaVersion := p.schemaVersion
  runId := p.runId
  ticketId := p.ticketId
  step := p.step
  workspaceRoot := p.workspaceRoot.str
  readRoots := p.readRoots.map Path.str
  writeRoots := p.writeRoots.map Path.str
  denyReadRoots := p.denyReadRoots.map Path.str
  denyWriteRoots := p.denyWriteRoots.map Path.str
  networkMode := p.networkMode
  allowedDomains := p.allowedDomains
  processLimit := p.processLimit
  wallTimeoutSeconds := p.wallTimeoutSeconds
  outputLimitBytes := p.outputLimitBytes
  protectedPaths := p.protectedPaths.map Path.str

/-- What a policy has passed. -/
structure Facts (p : PolicyFields) : Prop where
  texts : ∀ f ∈ p.identityTexts, f.2.all isScalar = true
  root : p.workspaceRoot.str.all isScalar = true
  paths : ∀ f ∈ p.pathLists, ∀ path ∈ f.2, path.str.all isScalar = true
  domains : ∀ d ∈ p.allowedDomains, d.all isScalar = true ∧ isExactDnsHostname' d = true
  version : p.schemaVersion = policySchemaVersion

theorem facts (p : SandboxPolicy) : Facts p.toPolicyFields := by
  have h := p.valid
  simp only [PolicyFields.validate, PolicyFields.validateUnicodeScalars, requireUtf8Scalar,
    bind_eq_ok, require_eq_ok, requireAll_eq_ok, exists_const] at h
  obtain ⟨⟨htexts, hroot, hpaths, hdomains⟩, hversion, -, -, -, -, hexact, -⟩ := h
  refine ⟨htexts, hroot, fun f hf => List.all_eq_true.mp (hpaths f hf), fun d hd => ?_,
    by simpa using hversion⟩
  refine ⟨hdomains d hd, ?_⟩
  simp only [List.isEmpty_iff, List.filter_eq_nil_iff, Bool.not_eq_true', Bool.not_eq_false]
    at hexact
  exact hexact d hd

theorem normalizePath_of_resolved {fs : FileSystem} {path : Path} {location : String}
    (hscalar : path.str.all isScalar = true) (hresolved : fs.resolve path.str = some path) :
    normalizePath fs path.str location = .ok path := by
  simp only [normalizePath, requireUtf8Scalar, hscalar, require, if_true, hresolved]
  rfl

theorem normalizePaths_of_normal {fs : FileSystem} {paths : List Path} {location : String}
    (hscalar : ∀ path ∈ paths, path.str.all isScalar = true) (h : NormalPaths fs paths) :
    normalizePaths fs (paths.map Path.str) location = .ok paths := by
  have hall := mapAll_map (f := fun text => normalizePath fs text (location ++ " item"))
    (g := Path.str) fun path hpath =>
      normalizePath_of_resolved (hscalar path hpath) (h.resolved path hpath)
  simp only [normalizePaths, bind_eq_ok, pure, Except.pure, Except.ok.injEq]
  exact ⟨paths, hall, sort_dedup_eq_self Path.str h.nodup h.sorted⟩

theorem validated_eq_ok {f : PolicyFields} {p : SandboxPolicy} (h : f = p.toPolicyFields) :
    (match h : f.validate with
      | .ok () => (pure ⟨f, h⟩ : Except PolicyError SandboxPolicy)
      | .error e => throw e) = .ok p := by
  subst h
  split
  · rfl
  · rename_i e he
    rw [p.valid] at he
    cases he

/-- The constructor makes a policy in its normal form again as it is. -/
theorem make_argumentsOf {fs : FileSystem} {p : SandboxPolicy} (h : Normal fs p) :
    make fs (argumentsOf p) = .ok p := by
  have hf := facts p
  have hlists : ∀ f ∈ p.pathLists, normalizePaths fs (f.2.map Path.str) f.1 = .ok f.2 :=
    fun f hmem => normalizePaths_of_normal (hf.paths f hmem) (h.lists f hmem)
  have hlower : p.allowedDomains.map (fun d => if isExactDnsHostname d then d.map lowerAscii else d)
      = p.allowedDomains := by
    conv_rhs => rw [← List.map_id p.allowedDomains]
    refine List.map_congr_left fun d hd => ?_
    split_ifs
    · exact map_lowerAscii (hf.domains d hd).2
    · rfl
  have hdomains := sort_dedup_eq_self id h.domainsNodup h.domainsSorted
  simp only [PolicyFields.pathLists, List.forall_mem_cons] at hlists
  obtain ⟨hread, hwrite, hdenyRead, hdenyWrite, hprotected, -⟩ := hlists
  unfold make
  simp only [bind_eq_ok, requireAll_eq_ok]
  refine ⟨(), ?_, (), ?_, (), fun d hd => (hf.domains d hd).1, _,
    normalizePath_of_resolved hf.root h.root, _, hread, _, hwrite, _, hdenyRead, _, hdenyWrite, _,
    hprotected, ?_⟩
  · have htexts := hf.texts
    simp only [PolicyFields.identityTexts, List.forall_mem_cons] at htexts ⊢
    exact ⟨htexts.1, htexts.2.1, htexts.2.2.1, hf.root, by simp⟩
  · have hpaths := hf.paths
    simp only [PolicyFields.pathLists, List.forall_mem_cons] at hpaths ⊢
    simp only [argumentsOf, List.all_map, List.all_eq_true, Function.comp_apply] at hpaths ⊢
    exact ⟨hpaths.1, hpaths.2.1, hpaths.2.2.1, hpaths.2.2.2.1, hpaths.2.2.2.2.1, by simp⟩
  · refine validated_eq_ok ?_
    simp only [argumentsOf]
    rw [hlower]
    simp only [id] at hdomains
    rw [hdomains]

/-! ## A policy and its dict -/

/-- The members of the dict of a policy. -/
structure Carries (data : Members) (p : PolicyFields) : Prop where
  keys : data.keysAre wireFields = true
  schemaVersion : data.get "schema_version" = .int p.schemaVersion
  runId : data.get "run_id" = .str p.runId
  ticketId : data.get "ticket_id" = .str p.ticketId
  step : data.get "step" = .str p.step
  workspaceRoot : data.get "workspace_root" = .str p.workspaceRoot.str
  readRoots : data.get "read_roots" = pathTexts p.readRoots
  writeRoots : data.get "write_roots" = pathTexts p.writeRoots
  denyReadRoots : data.get "deny_read_roots" = pathTexts p.denyReadRoots
  denyWriteRoots : data.get "deny_write_roots" = pathTexts p.denyWriteRoots
  networkMode : data.get "network_mode" = .str p.networkMode.value
  allowedDomains : data.get "allowed_domains" = .arr (p.allowedDomains.map .str)
  processLimit : data.get "process_limit" = .int p.processLimit
  wallTimeoutSeconds : data.get "wall_timeout_seconds" = .int p.wallTimeoutSeconds
  outputLimitBytes : data.get "output_limit_bytes" = .int p.outputLimitBytes
  protectedPaths : data.get "protected_paths" = pathTexts p.protectedPaths

theorem exists_toDict (p : SandboxPolicy) :
    ∃ data, p.toDict = .obj data ∧ Carries data p.toPolicyFields := by
  refine ⟨_, rfl, ?_⟩
  constructor
  case keys => simp [Members.keysAre, wireFields, Dict.keys, Dict.has]
  all_goals simp [Members.get, Dict.get?_cons]

/-! ## There and back -/

theorem isAbsolute_str (path : Path) : isAbsolute path.str = true := by
  cases path with
  | nil => rfl
  | cons part path => simp [isAbsolute, Path.str]

theorem requireAbsolute_str (paths : List Path) {name : String} :
    requireAbsolute (paths.map Path.str) name = .ok () := by
  rw [requireAbsolute, require_eq_ok, List.all_map, List.all_eq_true]
  exact fun path _ => isAbsolute_str path

theorem networkModeOf_value (m : NetworkMode) : networkModeOf m.value = some m := by
  cases m <;> simp [networkModeOf, NetworkMode.value]

theorem wireText_str {data : Members} {name : String} {text : PyStr}
    (h : data.get name = .str text) : wireText data name = .ok text := by
  rw [wireText, h, Json.text?, orRaise_eq_ok]

theorem wireInteger_int {data : Members} {name : String} {n : ℤ} (h : data.get name = .int n) :
    wireInteger data name = .ok n := by
  rw [wireInteger, h]
  rfl

theorem wireTexts_arr {data : Members} {name : String} {texts : List PyStr}
    (h : data.get name = .arr (texts.map .str)) : wireTexts data name = .ok texts := by
  rw [wireTexts, h]
  refine mapAll_map fun x _ => ?_
  rw [Json.text?, orRaise_eq_ok]

theorem wireTexts_pathTexts {data : Members} {name : String} {paths : List Path}
    (h : data.get name = pathTexts paths) : wireTexts data name = .ok (paths.map Path.str) := by
  refine wireTexts_arr ?_
  rw [h, pathTexts, List.map_map]
  rfl

/-- A policy is read back from its dict. -/
theorem fromDict_toDict {fs : FileSystem} {p : SandboxPolicy} (h : Normal fs p) :
    fromDict fs p.toDict = .ok p := by
  obtain ⟨data, hdata, hc⟩ := exists_toDict p
  have hversion := (facts p).version
  have hmake : (make fs { argumentsOf p with schemaVersion := policySchemaVersion }).mapError
      WireError.policy = .ok p := by
    rw [← hversion]
    exact congrArg (Except.mapError WireError.policy) (make_argumentsOf h)
  rw [hdata, fromDict]
  simp only [bind_eq_ok, require_eq_ok, orRaise_eq_ok]
  refine ⟨data, rfl, (), hc.keys, (), ?_, _, wireText_str hc.runId, _, wireText_str hc.ticketId, _,
    wireText_str hc.step, _, wireText_str hc.workspaceRoot, _, wireTexts_pathTexts hc.readRoots, _,
    wireTexts_pathTexts hc.writeRoots, _, wireTexts_pathTexts hc.denyReadRoots, _,
    wireTexts_pathTexts hc.denyWriteRoots, _, wireTexts_pathTexts hc.protectedPaths, _,
    wireTexts_arr hc.allowedDomains, _, wireInteger_int hc.processLimit, _,
    wireInteger_int hc.wallTimeoutSeconds, _, wireInteger_int hc.outputLimitBytes, _,
    wireText_str hc.networkMode, _, networkModeOf_value p.networkMode, (),
    requireAbsolute_str [p.workspaceRoot], (), requireAbsolute_str _, (), requireAbsolute_str _,
    (), requireAbsolute_str _, (), requireAbsolute_str _, (), requireAbsolute_str _, hmake⟩
  rw [hc.schemaVersion, Json.isExactly_iff, hversion]

/-! ## The dict determines the policy -/

theorem splitOn_flatMap {path : Path} (h : Clean path) :
    splitOn (.scalar '/') (path.flatMap fun part => .scalar '/' :: part) = [] :: path := by
  induction path with
  | nil => rfl
  | cons part path ih =>
    obtain ⟨⟨-, hpart⟩, hpath⟩ := List.forall_mem_cons.mp h
    rw [List.flatMap_cons, List.cons_append, splitOn, if_pos rfl]
    cases path with
    | nil => rw [List.flatMap_nil, List.append_nil, splitOn_eq_singleton hpart]
    | cons next path =>
      have ih := ih hpath
      rw [List.flatMap_cons, List.cons_append, splitOn, if_pos rfl] at ih
      rw [List.flatMap_cons, List.cons_append, splitOn_append hpart, List.cons.inj ih |>.2]

theorem splitOn_str {path : Path} (h : Clean path) :
    splitOn (.scalar '/') path.str = if path.isEmpty then [[], []] else [] :: path := by
  cases path with
  | nil => rfl
  | cons part path => exact splitOn_flatMap h

/-- Different paths have different texts. -/
theorem str_inj {p q : Path} (hp : Clean p) (hq : Clean q) (h : p.str = q.str) : p = q := by
  have hsplit := congrArg (splitOn (.scalar '/')) h
  rw [splitOn_str hp, splitOn_str hq] at hsplit
  cases p with
  | nil =>
    cases q with
    | nil => rfl
    | cons part q =>
      have hpart : [] = part := (List.cons.inj (List.cons.inj hsplit).2).1
      exact absurd hpart.symm (hq part List.mem_cons_self).1
  | cons part p =>
    cases q with
    | nil =>
      have hpart : part = [] := (List.cons.inj (List.cons.inj hsplit).2).1
      exact absurd hpart (hp part List.mem_cons_self).1
    | cons next q => exact (List.cons.inj hsplit).2

theorem texts_inj {xs ys : List PyStr} (h : Json.Same (.arr (xs.map .str)) (.arr (ys.map .str))) :
    xs = ys := by
  rw [Json.same_arr, List.forall₂_map_left_iff, List.forall₂_map_right_iff] at h
  exact List.forall₂_eq_eq_eq ▸ h.imp fun _ _ => eq_of_same_text

theorem map_str_inj {ps qs : List Path} (hp : ∀ p ∈ ps, Clean p) (hq : ∀ q ∈ qs, Clean q)
    (h : ps.map Path.str = qs.map Path.str) : ps = qs := by
  induction ps generalizing qs with
  | nil => exact (List.map_eq_nil_iff.mp h.symm).symm
  | cons p ps ih =>
    cases qs with
    | nil => cases h
    | cons q qs =>
      obtain ⟨hhead, htail⟩ := List.cons.inj h
      obtain ⟨hp, hps⟩ := List.forall_mem_cons.mp hp
      obtain ⟨hq, hqs⟩ := List.forall_mem_cons.mp hq
      rw [str_inj hp hq hhead, ih hps hqs htail]

theorem pathTexts_inj {ps qs : List Path} (hp : ∀ p ∈ ps, Clean p) (hq : ∀ q ∈ qs, Clean q)
    (h : Json.Same (pathTexts ps) (pathTexts qs)) : ps = qs := by
  refine map_str_inj hp hq (texts_inj ?_)
  rw [List.map_map, List.map_map]
  exact h

theorem value_injective : Function.Injective NetworkMode.value := by
  intro m n h
  have hm := networkModeOf_value m
  rw [h, networkModeOf_value] at hm
  exact (Option.some.inj hm).symm

/-- The paths of a policy in its normal form. -/
theorem Normal.clean {fs : FileSystem} (hfs : fs.Lawful) {p : SandboxPolicy} (h : Normal fs p) :
    Clean p.workspaceRoot ∧ ∀ f ∈ p.pathLists, ∀ path ∈ f.2, Clean path :=
  ⟨hfs.clean _ _ h.root, fun f hf path hpath => hfs.clean _ _ ((h.lists f hf).resolved path hpath)⟩

/-- Different policies have different dicts. -/
theorem toDict_inj {fs fs' : FileSystem} (hfs : fs.Lawful) (hfs' : fs'.Lawful)
    {p q : SandboxPolicy} (hp : Normal fs p) (hq : Normal fs' q) (h : Json.Same p.toDict q.toDict) :
    p = q := by
  obtain ⟨data, hdata, hc⟩ := exists_toDict p
  obtain ⟨data', hdata', hc'⟩ := exists_toDict q
  rw [hdata, hdata'] at h
  have hfield : ∀ {name : String} {v w : Json}, Members.get data name = v →
      Members.get data' name = w → Json.Same v w := by
    rintro name v w rfl rfl
    exact same_fieldOf h name
  obtain ⟨hcleanRoot, hclean⟩ := hp.clean hfs
  obtain ⟨hcleanRoot', hclean'⟩ := hq.clean hfs'
  simp only [PolicyFields.pathLists, List.forall_mem_cons] at hclean hclean'
  refine ext_fields ?_
  rw [PolicyFields.mk.injEq]
  exact ⟨(facts p).version.trans (facts q).version.symm,
    eq_of_same_text (hfield hc.runId hc'.runId),
    eq_of_same_text (hfield hc.ticketId hc'.ticketId),
    eq_of_same_text (hfield hc.step hc'.step),
    str_inj hcleanRoot hcleanRoot' (eq_of_same_text (hfield hc.workspaceRoot hc'.workspaceRoot)),
    pathTexts_inj hclean.1 hclean'.1 (hfield hc.readRoots hc'.readRoots),
    pathTexts_inj hclean.2.1 hclean'.2.1 (hfield hc.writeRoots hc'.writeRoots),
    pathTexts_inj hclean.2.2.1 hclean'.2.2.1 (hfield hc.denyReadRoots hc'.denyReadRoots),
    pathTexts_inj hclean.2.2.2.1 hclean'.2.2.2.1 (hfield hc.denyWriteRoots hc'.denyWriteRoots),
    value_injective (eq_of_same_text (hfield hc.networkMode hc'.networkMode)),
    texts_inj (hfield hc.allowedDomains hc'.allowedDomains),
    eq_of_same_int (hfield hc.processLimit hc'.processLimit),
    eq_of_same_int (hfield hc.wallTimeoutSeconds hc'.wallTimeoutSeconds),
    eq_of_same_int (hfield hc.outputLimitBytes hc'.outputLimitBytes),
    pathTexts_inj hclean.2.2.2.2.1 hclean'.2.2.2.2.1
      (hfield hc.protectedPaths hc'.protectedPaths)⟩

theorem canonicalJson_inj {fs fs' : FileSystem} (hfs : fs.Lawful) (hfs' : fs'.Lawful)
    {p q : SandboxPolicy} (hp : Normal fs p) (hq : Normal fs' q)
    (h : p.canonicalJson = q.canonicalJson) : p = q :=
  toDict_inj hfs hfs' hp hq (Json.dumps_inj.mp h)

/-- A policy that the constructor has made is read back from its dict; policies with the same
canonical JSON, and without a collision those with the same hash, are equal. -/
theorem policy_wire {fs fs' : FileSystem} (hfs : fs.Lawful) (hfs' : fs'.Lawful)
    {a a' : Arguments} {p q : SandboxPolicy} (hp : make fs a = .ok p)
    (hq : make fs' a' = .ok q) :
    fromDict fs p.toDict = .ok p ∧ (p.canonicalJson = q.canonicalJson → p = q) ∧
      ((NoCollision fun raw =>
          raw = encodePass p.canonicalJson ∨ raw = encodePass q.canonicalJson) →
        p.policyHash = q.policyHash → p = q) := by
  have hnp := normal_of_make hfs hp
  have hnq := normal_of_make hfs' hq
  refine ⟨fromDict_toDict hnp, canonicalJson_inj hfs hfs' hnp hnq, fun hcol hhash => ?_⟩
  have hbytes := hcol _ _ (.inl rfl) (.inr rfl) hhash
  exact canonicalJson_inj hfs hfs' hnp hnq (encodePass_injective hbytes)

/-- A file system that holds `/w`, `/w/out` and `/w/.git`. -/
def stepFiles : FileSystem where
  resolve text :=
    [[lit "w"], [lit "w", lit "out"], [lit "w", lit ".git"]].find? fun path => path.str = text
  resolveStrict text := if text = "/w" then some [lit "w"] else none
  isDir path := path == [lit "w"]

theorem lawful_stepFiles : stepFiles.Lawful := by
  constructor
  · intro text path h
    have hmem := List.mem_of_find?_eq_some h
    have hall : ∀ path ∈ [[lit "w"], [lit "w", lit "out"], [lit "w", lit ".git"]], Clean path := by
      unfold Clean
      decide
    exact hall path hmem
  · intro text path h
    have htext : Path.str path = text := by simpa using List.find?_some h
    rw [htext]
    exact h

theorem policy_wire_review :
    fromDict stepFiles reviewStep.toDict = .ok reviewStep ∧
      (reviewStep.canonicalJson = reviewerStep.canonicalJson → reviewStep = reviewerStep) ∧
      (reviewStep.policyHash = reviewStep.policyHash → reviewStep = reviewStep) := by
  have hp : make stepFiles (argumentsOf reviewStep) = .ok reviewStep := by rfl
  have hq : make stepFiles (argumentsOf reviewerStep) = .ok reviewerStep := by rfl
  obtain ⟨hback, hjson, -⟩ := policy_wire lawful_stepFiles lawful_stepFiles hp hq
  obtain ⟨-, -, hhash⟩ := policy_wire lawful_stepFiles lawful_stepFiles hp hp
  refine ⟨hback, hjson, hhash ?_⟩
  rintro x y (rfl | rfl) (rfl | rfl) -
  all_goals rfl

end SandboxPolicy

end Icode
