import LocateAnything.Lib.Binary64
import LocateAnything.Worker.ValidateStartup

/-!
# `validate_startup.py`: the preflight checks

`run_all` looks at the environment, the GPU, the model directory, the preprocessor's
configuration and the prompt templates, in this order, and exits with 1 at the first that is
not as pinned. `runAll_eq_ok_iff` says on which machines it returns. Everything behind it, the
calibration and the socket and the server, rests on that answer: `Boot` never looks at a
machine again, only at whether it is `Fit`.

The pinned digests and settings are the source's own, value for value. They are what the
checks are about, and no proof depends on which they are, but for three facts about the tables
taken together: every setting with a canonical value is a required one, no canonical value is
empty, and the required files are all pinned. Two of the checks never decide anything because
of it: `REQUIRED_FILES` are all pinned, and weights of 7 GiB are some weights. They are
modelled all the same; what they decide is the message a machine that is not fit exits with.

A file is its content here, and the digest a function. That two contents can have one digest
does not matter: what the checks promise is about digests (`Verified`).
-/

set_option autoImplicit false

namespace LocateAnything.Worker

open Checks
open Framing (Bytes)

/-! ## `validate_env` -/

/-- `os.environ`. The checks treat a variable that is empty like one that is not there. -/
abbrev Environ := Str → Option Str

/-- What has to be set, to whatever value. -/
def requiredEnv : List Str :=
  ["LA_MODEL_DTYPE".toList, "LA_ATTN_IMPL".toList, "LA_GEN_TEMPERATURE".toList,
   "LA_GEN_TOP_P".toList, "LA_GEN_DO_SAMPLE".toList, "LA_GEN_REP_PEN".toList,
   "LA_GEN_MAX_NEW_TOKENS".toList, "LA_GEN_N_FUTURE_TOKENS".toList, "LA_IPC_SOCKET".toList]

/-- What has to be set to one value and no other. The values are compared as strings, so
    `0.70` is a drift. -/
def canonicalEnv : List (Str × Str) :=
  [("LA_GEN_TEMPERATURE".toList, "0.7".toList), ("LA_GEN_TOP_P".toList, "0.9".toList),
   ("LA_GEN_REP_PEN".toList, "1.1".toList), ("LA_GEN_DO_SAMPLE".toList, "1".toList),
   ("LA_GEN_N_FUTURE_TOKENS".toList, "6".toList),
   ("LA_GEN_MAX_NEW_TOKENS".toList, "8192".toList),
   ("LA_MODEL_DTYPE".toList, "bfloat16".toList), ("LA_ATTN_IMPL".toList, "sdpa".toList)]

inductive EnvFault where
  | missing (ks : List Str)
  /-- A variable, what it is and what it should be. -/
  | drift (ds : List (Str × Str × Str))

/-- `validate_env`. All variables are looked at before anything is reported, so a message
    names every one that is missing, or, if none is, every one that differs. -/
def validateEnv (environ : Environ) : Except EnvFault Unit :=
  let missing := requiredEnv.filter fun k => (environ k).getD [] = []
  let drift := canonicalEnv.filterMap fun e =>
    -- the variable is there: it is among the required ones
    let got := (environ e.1).getD []
    if got ≠ e.2 then some (e.1, got, e.2) else none
  if missing ≠ [] then .error (.missing missing)
  else if drift ≠ [] then .error (.drift drift)
  else .ok ()

/-! ## `validate_gpu` -/

/-- What `torch.cuda` says of the machine. -/
structure Gpu where
  is_available : Bool
  device_count : Nat
  /-- `get_device_capability(0)` -/
  cap : Int × Int
  /-- `get_device_properties(0).total_memory`, in bytes -/
  total_memory : Nat
  /-- `get_arch_list()` -/
  arches : List Str

/-- The memory in GB, as Python divides it out. The bound it is compared with is a whole
    number, but the quotient is rounded, so it is computed as a float is. -/
def Gpu.total_mem (g : Gpu) : ℚ := Binary64.double (Binary64.double g.total_memory / 10 ^ 9)

inductive GpuFault where
  | notAvailable
  | noDevice
  | capability (cap : Int × Int)
  | memory (total_mem : ℚ)
  | arches (arches : List Str)

/-- `validate_gpu`: one device of the architecture the weights were built for, with room for
    them. -/
def validateGpu (g : Gpu) : Except GpuFault Unit :=
  if g.is_available = false then .error .notAvailable
  else if g.device_count = 0 then .error .noDevice
  else if g.cap.1 < 12 then .error (.capability g.cap)
  else if g.total_mem < 24 then .error (.memory g.total_mem)
  else if ¬ ∃ a ∈ g.arches, "sm_120".toList <:+: a then .error (.arches g.arches)
  else .ok ()

/-! ## `validate_model_dir` -/

/-- `_PINNED_PY_SHA256` -/
def pinnedPy : List (Str × Str) :=
  [("configuration_locateanything.py".toList,
     "d2738cc180add2b77e88b8cf2bc87ff012f23bd417a99150a033f61b0a8eb857".toList),
   ("configuration_qwen2.py".toList,
     "1fda5efb735cae465debd414afc673389fe731afd95c934a469faa23d3d7fdf1".toList),
   ("generate_utils.py".toList,
     "863187051772549928bf103b58f6176263c9b786fb19ef83fd7b2e76169fa65e".toList),
   ("image_processing_locateanything.py".toList,
     "5109868add766c7e244487ecfff6a6f5a4aa1497b38b385a33a969f12e23b4ec".toList),
   ("mask_magi_utils.py".toList,
     "646b565e38b30d58cafe30aeecf0283aee83d198ce8e57936c3488c1dc7b9276".toList),
   ("mask_sdpa_utils.py".toList,
     "7e9d600eb25283963cc1696da060813066b9795da467cf9fb0ca68bfc8de1e1d".toList),
   ("modeling_locateanything.py".toList,
     "ffe736fb8ded5d597201704ccd85134d18a8e4dea43d309228644737234b7244".toList),
   ("modeling_qwen2.py".toList,
     "aadb676c0a587a16b7071977c159df16299fad22d88ee8ed9754881ab7f59575".toList),
   ("modeling_vit.py".toList,
     "96479eb121c840f009a32830c78740154171290419108caefcf8778580700373".toList),
   ("processing_locateanything.py".toList,
     "682145ed054b1e912e66273b476e51a25b2d666d4a37b26385af9300b66d40d8".toList)]

/-- `_PINNED_WEIGHT_SHA256` -/
def pinnedWeight : List (Str × Str) :=
  [("model-00001-of-00002.safetensors".toList,
     "923cfc10fed19808067da6df85a9a4220ddc1f9eb91ceee94c0fecd05d0f2d58".toList),
   ("model-00002-of-00002.safetensors".toList,
     "3459ba101f40594f3f62d3312014f1f8378b4ba3da3b1d562480045938fc7d47".toList),
   ("model.safetensors.index.json".toList,
     "2ecc63fee5f958ffc8142fa29ff7b704a58e80349e9c9ca155a9710d97700271".toList),
   ("config.json".toList,
     "59e6b5104f9d948db6a38f778e29f86d5c01e373f46d02008fc3070377917007".toList),
   ("tokenizer_config.json".toList,
     "930b057de30312f861a22780017b09eccd87e893d966bd004bf4d70eec0e2652".toList),
   ("preprocessor_config.json".toList,
     "34f0dc33b40ee26d280d7ed93614c90b1d41a68d6ccfe5a8341e274e6169f94e".toList),
   ("processor_config.json".toList,
     "1274db3b9504d37e57ea41ba7de547194d381265c5946f6db8560f851a940992".toList),
   ("chat_template.json".toList,
     "a0cb84f5108587c8a2e944ad7d4b123bb413c34baeef30e3d6d7a3bb486a835d".toList),
   ("added_tokens.json".toList,
     "1a87d2bec4c707c3946235046555d91f9df6986b8dd4a3ac53e6d0b24c36d176".toList),
   ("generation_config.json".toList,
     "f15f5de33244a61325923e99bad2c061029acb8d6dd5c57f8458b3949ddd8f97".toList),
   ("special_tokens_map.json".toList,
     "bfadce2f545458bf9d39fc9153cd2ac1077371ed5ab553fa4988061fefe67ac7".toList),
   ("vocab.json".toList,
     "87a257b04b17642a0688c98cd1df89c398bda4fee532d6f88b38a659ecb4ac8d".toList),
   ("merges.txt".toList,
     "8831e4f1a044471340f7c0a83d7bd71306a5b867e95fd870f74d0c5308a904d5".toList)]

/-- The two tables as one; they share no key. -/
def pinned : List (Str × Str) := pinnedPy ++ pinnedWeight

/-- `REQUIRED_FILES` -/
def requiredFiles : List Str :=
  ["config.json".toList, "tokenizer_config.json".toList, "preprocessor_config.json".toList,
   "processor_config.json".toList, "chat_template.json".toList, "added_tokens.json".toList,
   "modeling_locateanything.py".toList, "processing_locateanything.py".toList,
   "image_processing_locateanything.py".toList, "modeling_vit.py".toList,
   "modeling_qwen2.py".toList, "generation_config.json".toList, "generate_utils.py".toList]

/-- What a name of a directory stands for. Only a file has content; a directory or a device
    counts with the size `stat` gives it. -/
inductive Node where
  | file (content : Bytes)
  | other (st_size : Nat)

def Node.st_size : Node → Nat
  | file content => content.length
  | other st_size => st_size

/-- What `read_bytes` returns, if `is_file`. -/
def Node.content? : Node → Option Bytes
  | file content => some content
  | other _ => none

/-- A directory, in the order `glob` lists it. -/
abbrev Listing := List (Str × Node)

def Listing.read (entries : Listing) (name : Str) : Option Bytes :=
  (Json.get name entries).bind Node.content?

/-- `glob("*" + suffix)` -/
def Listing.glob (entries : Listing) (suffix : Str) : Listing :=
  entries.filter fun e => suffix <:+ e.1

def Listing.total (entries : Listing) : Nat := (entries.map fun e => e.2.st_size).sum

inductive ModelDirFault where
  | noDirectory
  | missingRequired (missing : List Str)
  | noWeights
  | unpinned (unpinned_py : List Str)
  | tooSmall (total_bytes : Nat)
  | missingPinned (missing : List Str)
  /-- A file, the digest it should have and the one it has. -/
  | drift (mismatches : List (Str × Str × Str))

/-- `validate_model_dir`. `sha256` is `hashlib.sha256(content).hexdigest()`. A Python file
    that is not pinned is refused even if nothing would load it: the model code is run with
    `trust_remote_code`. -/
def validateModelDir (sha256 : Bytes → Str) : Option Listing → Except ModelDirFault Unit
  | none => .error .noDirectory
  | some entries =>
    let missing := requiredFiles.filter fun f => (entries.read f).isNone
    let safetensors := entries.glob ".safetensors".toList
    let unpinned_py :=
      ((entries.glob ".py".toList).map Prod.fst).filter fun f => f ∉ pinnedPy.map Prod.fst
    let missingPinned := (pinned.map Prod.fst).filter fun f => (entries.read f).isNone
    let mismatches := pinned.filterMap fun p =>
      (entries.read p.1).bind fun content =>
        if sha256 content ≠ p.2 then some (p.1, p.2, sha256 content) else none
    if missing ≠ [] then .error (.missingRequired missing)
    else if safetensors = [] then .error .noWeights
    else if unpinned_py ≠ [] then .error (.unpinned unpinned_py)
    else if safetensors.total < 7 * 1024 * 1024 * 1024 then .error (.tooSmall safetensors.total)
    else if missingPinned ≠ [] then .error (.missingPinned missingPinned)
    else if mismatches ≠ [] then .error (.drift mismatches)
    else .ok ()

/-! ## `validate_preprocessor_config` -/

/-- A value of `EXPECTED`. Python compares numbers across their types, so 14 and 14.0 are one.
    -/
inductive Want where
  | text (s : Str)
  | num (q : ℚ)
  | nums (qs : List ℚ)

def expectedPreprocessor : List (Str × Want) :=
  [("image_processor_type".toList, .text "LocateAnythingImageProcessor".toList),
   ("processor_class".toList, .text "LocateAnythingProcessor".toList),
   ("in_token_limit".toList, .num 25600), ("patch_size".toList, .num 14),
   ("merge_kernel_size".toList, .nums [2, 2]),
   ("image_mean".toList, .nums [1 / 2, 1 / 2, 1 / 2]),
   ("image_std".toList, .nums [1 / 2, 1 / 2, 1 / 2])]

/-- A document as a Python number; a `bool` is one. -/
def numberOf : Json Str → Option ℚ
  | .num (.posInt n) => some n
  | .num (.negInt n) => some (-n)
  | .num (.float x) => some x
  | .bool b => some (if b then 1 else 0)
  | _ => none

/-- `got == want`, by the kind of the expected value. -/
def Want.equals : Want → Json Str → Bool
  | text s, d => textOf d = some s
  | num q, d => numberOf d = some q
  | nums qs, .arr elems => elems.map numberOf = qs.map some
  | nums _, _ => false

inductive PreprocessorFault where
  | missing
  | unparsable (e : LoadError)
  /-- A list or a string that lacks the keys, or a `TypeError`. -/
  | notObject (cfg : Json Str)
  | drift (drift : List (Str × Want × Option (Json Str)))

def validatePreprocessorConfig (py : Python) (entries : Listing) :
    Except PreprocessorFault Unit :=
  match entries.read "preprocessor_config.json".toList with
  | none => .error .missing
  | some text =>
    match py.loads text with
    | .error e => .error (.unparsable e)
    | .ok (.obj cfg) =>
      let drift := (expectedPreprocessor.map fun e => (e.1, e.2, Json.get e.1 cfg)).filter fun e =>
        !(e.2.2.map e.2.1.equals).getD false
      if drift ≠ [] then .error (.drift drift) else .ok ()
    | .ok other => .error (.notObject other)

/-! ## `run_all` -/

/-- What the checks look at. -/
structure Machine where
  environ : Environ
  gpu : Gpu
  /-- `None` where the path is no directory. -/
  model_dir : Option Listing
  probe : Probe

inductive PreflightFault where
  | env (e : EnvFault)
  | gpu (e : GpuFault)
  | modelDir (e : ModelDirFault)
  | preprocessor (e : PreprocessorFault)
  | templates (e : DriftFault)

def runAll (sha256 : Bytes → Str) (py : Python) (P : Constants) (m : Machine) :
    Except PreflightFault Unit := do
  (validateEnv m.environ).mapError .env
  (validateGpu m.gpu).mapError .gpu
  (validateModelDir sha256 m.model_dir).mapError .modelDir
  (validatePreprocessorConfig py (m.model_dir.getD [])).mapError .preprocessor
  (validatePromptTemplateDrift py P m.probe).mapError .templates

/-! ## What they amount to -/

theorem canonicalEnv_required {e : Str × Str} (h : e ∈ canonicalEnv) : e.1 ∈ requiredEnv := by
  have hall : canonicalEnv.all fun e => e.1 ∈ requiredEnv := by decide +kernel
  exact of_decide_eq_true (List.all_eq_true.mp hall e h)

theorem requiredEnv_canonical {k : Str} (h : k ∈ requiredEnv) :
    k ∈ canonicalEnv.map Prod.fst ∨ k = "LA_IPC_SOCKET".toList := by
  have hall : requiredEnv.all fun k =>
      k ∈ canonicalEnv.map Prod.fst ∨ k = "LA_IPC_SOCKET".toList := by decide +kernel
  exact of_decide_eq_true (List.all_eq_true.mp hall k h)

theorem canonicalEnv_ne_nil {e : Str × Str} (h : e ∈ canonicalEnv) : e.2 ≠ [] := by
  have hall : canonicalEnv.all fun e => e.2 ≠ [] := by decide +kernel
  exact of_decide_eq_true (List.all_eq_true.mp hall e h)

theorem getD_nil_ne_nil_iff {o : Option Str} : o.getD [] ≠ [] ↔ ∃ s, o = some s ∧ s ≠ [] := by
  cases o <;> simp

theorem validateEnv_eq_ok_iff {environ : Environ} :
    validateEnv environ = .ok () ↔
      (∀ e ∈ canonicalEnv, environ e.1 = some e.2) ∧
      ∃ s, environ "LA_IPC_SOCKET".toList = some s ∧ s ≠ [] := by
  simp only [validateEnv, ite_error_eq_ok, not_not, List.filter_eq_nil_iff,
    List.filterMap_eq_nil_iff, decide_eq_true_eq, ite_eq_right_iff, reduceCtorEq, imp_false]
  constructor
  · rintro ⟨hthere, hcanonical⟩
    refine ⟨fun e he => ?_, getD_nil_ne_nil_iff.mp (hthere _ (by decide +kernel))⟩
    obtain ⟨got, hgot, -⟩ := getD_nil_ne_nil_iff.mp (hthere _ (canonicalEnv_required he))
    have := hcanonical e he
    rw [hgot] at this
    rw [hgot, ← this, Option.getD_some]
  · rintro ⟨hcanonical, hsocket⟩
    refine ⟨fun k hk => getD_nil_ne_nil_iff.mpr ?_, fun e he => by rw [hcanonical e he]; rfl⟩
    rcases requiredEnv_canonical hk with hk | rfl
    · obtain ⟨e, he, rfl⟩ := List.mem_map.mp hk
      exact ⟨e.2, hcanonical e he, canonicalEnv_ne_nil he⟩
    · exact hsocket

theorem validateGpu_eq_ok_iff {g : Gpu} :
    validateGpu g = .ok () ↔
      g.is_available = true ∧ g.device_count ≠ 0 ∧ 12 ≤ g.cap.1 ∧ 24 ≤ g.total_mem ∧
      ∃ a ∈ g.arches, "sm_120".toList <:+: a := by
  simp only [validateGpu, ite_error_eq_ok, not_not, and_true, not_lt,
    Bool.not_eq_false, ne_eq]

/-- Every pinned file has the pinned content, no other Python file is there, and the weights
    are large enough. -/
structure Verified (sha256 : Bytes → Str) (entries : Listing) : Prop where
  pinned : ∀ p ∈ pinned, ∃ content, entries.read p.1 = some content ∧ sha256 content = p.2
  py : ∀ f, ".py".toList <:+ f → f ∈ entries.map Prod.fst → f ∈ pinnedPy.map Prod.fst
  weights : 7 * 1024 * 1024 * 1024 ≤ (entries.glob ".safetensors".toList).total

/-- Why the first check never decides: a required file that is missing is a pinned one that is
    missing. -/
theorem requiredFiles_pinned {f : Str} (h : f ∈ requiredFiles) : f ∈ Worker.pinned.map Prod.fst := by
  have hall : requiredFiles.all fun f => f ∈ Worker.pinned.map Prod.fst := by decide +kernel
  exact of_decide_eq_true (List.all_eq_true.mp hall f h)

theorem isNone_eq_false_iff {α : Type} {o : Option α} : ¬ o.isNone = true ↔ ∃ a, o = some a := by
  cases o <;> simp

theorem validateModelDir_eq_ok_iff {sha256 : Bytes → Str} {dir : Option Listing} :
    validateModelDir sha256 dir = .ok () ↔
      ∃ entries, dir = some entries ∧ Verified sha256 entries := by
  cases dir with
  | none => simp [validateModelDir]
  | some entries =>
    simp only [validateModelDir, ite_error_eq_ok, not_not, List.filter_eq_nil_iff,
      List.filterMap_eq_nil_iff, not_lt, Option.some.injEq, exists_eq_left', decide_eq_true_eq,
      isNone_eq_false_iff, and_true]
    constructor
    · rintro ⟨-, -, hpy, hsize, hthere, hsame⟩
      refine ⟨fun p hp => ?_, fun f hf hmem => ?_, hsize⟩
      · obtain ⟨content, hcontent⟩ := hthere p.1 (List.mem_map_of_mem hp)
        have := hsame p hp
        rw [hcontent, Option.bind_some, ite_eq_right_iff] at this
        exact ⟨content, hcontent, not_not.mp fun h => absurd (this h) (by simp)⟩
      · obtain ⟨e, he, rfl⟩ := List.mem_map.mp hmem
        refine hpy e.1 (List.mem_map_of_mem (List.mem_filter.mpr ⟨he, ?_⟩))
        exact decide_eq_true hf
    · rintro ⟨hpinned, hpy, hsize⟩
      have hthere : ∀ f ∈ pinned.map Prod.fst, ∃ content, entries.read f = some content := by
        intro f hf
        obtain ⟨p, hp, rfl⟩ := List.mem_map.mp hf
        obtain ⟨content, hcontent, -⟩ := hpinned p hp
        exact ⟨content, hcontent⟩
      refine ⟨fun f hf => hthere f (requiredFiles_pinned hf), fun hnil => ?_, fun f hf => ?_,
        hsize, hthere, fun p hp => ?_⟩
      · -- no weights have no bytes
        rw [hnil] at hsize
        simp [Listing.total] at hsize
      · obtain ⟨e, he, rfl⟩ := List.mem_map.mp hf
        obtain ⟨he, hsuffix⟩ := List.mem_filter.mp he
        exact hpy e.1 (of_decide_eq_true hsuffix) (List.mem_map_of_mem he)
      · obtain ⟨content, hcontent, hsha⟩ := hpinned p hp
        rw [hcontent, Option.bind_some, if_neg (not_not.mpr hsha)]

theorem validatePreprocessorConfig_eq_ok_iff {py : Python} {entries : Listing} :
    validatePreprocessorConfig py entries = .ok () ↔
      ∃ text cfg, entries.read "preprocessor_config.json".toList = some text ∧
        py.loads text = .ok (.obj cfg) ∧
        ∀ e ∈ expectedPreprocessor, ∃ d, Json.get e.1 cfg = some d ∧ e.2.equals d = true := by
  unfold validatePreprocessorConfig
  cases hread : entries.read "preprocessor_config.json".toList with
  | none => simp
  | some text =>
    simp only [Option.some.injEq, exists_and_left, exists_eq_left']
    rcases hload : py.loads text with e | d
    · simp
    · cases d with
      | obj cfg =>
        have hgood : ∀ o : Option Bool, o.getD false = true ↔ o = some true := by
          intro o; cases o <;> simp
        simp only [ite_error_eq_ok, not_not, List.filter_eq_nil_iff, List.forall_mem_map,
          Bool.not_eq_true', Bool.not_eq_false, hgood, Option.map_eq_some_iff, Except.ok.injEq,
          Json.obj.injEq, exists_eq_left', and_true]
      | null | bool | num | str | arr => simp

/-- What `run_all` lets through. The settings, the socket's path, the device, the model's
    files and the two tables of templates. -/
structure Fit (sha256 : Bytes → Str) (py : Python) (P : Constants) (m : Machine) : Prop where
  env : ∀ e ∈ canonicalEnv, m.environ e.1 = some e.2
  socket : ∃ s, m.environ "LA_IPC_SOCKET".toList = some s ∧ s ≠ []
  gpu : m.gpu.is_available = true ∧ m.gpu.device_count ≠ 0 ∧ 12 ≤ m.gpu.cap.1 ∧
    24 ≤ m.gpu.total_mem ∧ ∃ a ∈ m.gpu.arches, "sm_120".toList <:+: a
  model : ∃ entries, m.model_dir = some entries ∧ Verified sha256 entries ∧
    ∃ text cfg, entries.read "preprocessor_config.json".toList = some text ∧
      py.loads text = .ok (.obj cfg) ∧
      ∀ e ∈ expectedPreprocessor, ∃ d, Json.get e.1 cfg = some d ∧ e.2.equals d = true
  templates : validatePromptTemplateDrift py P m.probe = .ok ()

/-- A check in front of others passes on its own; the message it would have given is of no
    concern. -/
theorem mapError_bind_eq_ok_iff {ε ε' : Type} {x : Except ε Unit} {f : ε → ε'}
    {rest : Except ε' Unit} :
    (x.mapError f >>= fun _ => rest) = .ok () ↔ x = .ok () ∧ rest = .ok () := by
  cases x with
  | error e =>
    refine iff_of_false (fun h => ?_) (fun h => absurd h.1 (by simp))
    exact absurd (show (Except.error (f e) : Except ε' Unit) = .ok () from h) (by simp)
  | ok u => exact (and_iff_right rfl).symm

theorem mapError_eq_ok_iff {ε ε' : Type} {x : Except ε Unit} {f : ε → ε'} :
    x.mapError f = .ok () ↔ x = .ok () := by
  cases x <;> simp [Except.mapError]

/-- **`run_all` returns on the machines that are fit, and on no other.** -/
theorem runAll_eq_ok_iff {sha256 : Bytes → Str} {py : Python} {P : Constants} {m : Machine} :
    runAll sha256 py P m = .ok () ↔ Fit sha256 py P m := by
  simp only [runAll, mapError_bind_eq_ok_iff, mapError_eq_ok_iff, validateEnv_eq_ok_iff,
    validateGpu_eq_ok_iff, validateModelDir_eq_ok_iff, validatePreprocessorConfig_eq_ok_iff]
  constructor
  · rintro ⟨⟨henv, hsocket⟩, hgpu, ⟨entries, hdir, hv⟩, hpre, htemplates⟩
    rw [hdir, Option.getD_some] at hpre
    exact ⟨henv, hsocket, hgpu, ⟨entries, hdir, hv, hpre⟩, htemplates⟩
  · rintro ⟨henv, hsocket, hgpu, ⟨entries, hdir, hv, hpre⟩, htemplates⟩
    refine ⟨⟨henv, hsocket⟩, hgpu, ⟨entries, hdir, hv⟩, ?_, htemplates⟩
    rw [hdir, Option.getD_some]
    exact hpre

end LocateAnything.Worker
