import Mathlib.Algebra.Order.Floor.Semiring
import Mathlib.Data.List.GetD
import Mathlib.Data.Nat.Cast.Order.Field
import Mathlib.Data.Rat.Floor
import LocateAnything.Worker.Connection
import LocateAnything.Worker.Patterns

/-!
# `calibration.py`

Before it listens, the worker runs the engine on a known image: once to warm up, which must
yield something the parser knows, and `n_runs` times on the clock. The statistics of those
runs are published with the capabilities. They bind no one, the server processes every frame
it is sent, but they are all a client is told about the pace of it. `calibrate_describes` says
what a published calibration rests on.

The latencies are exact rationals here, and so is the rank of the 95th percentile. The clock
reports floats, but the statistics only sort them, pick among them and take one mean, and the
order of floats is that of the numbers they are. The rank is the formula of the source, which
rounds `0.95 * (n - 1)` half up; with few runs it is the slowest of them, and that it is an
index of the list at all is a lemma (`p95Idx_lt`).
-/

set_option autoImplicit false

namespace LocateAnything.Worker

open Checks
open Framing (Bytes)

/-- `has_abstention`: the warm-up may have seen nothing on the image, as long as it says so.
    -/
def hasAbstention (answer : Str) : Bool := noneRe.finditer answer ≠ []

/-- What `is_file` and `read_bytes` make of the path. The three outcomes are told apart
    because each has an error of its own. -/
inductive CalibrationImage where
  | notFile
  | unreadable (e : Str)
  | read (jpeg : Bytes)

/-- Why a worker does not come up. None of these is met again later: the worker exits. -/
inductive CalibrationFault where
  | notFound
  | unreadable (e : Str)
  | empty
  | nRuns (n_runs : Int)
  | prompt (e : PromptError)
  | engine (e : Fault)
  | unrecognizable (raw_answer : Str)

structure CalibrationResult where
  n_runs : Int
  median_latency_ms : ℚ
  p95_latency_ms : ℚ
  min_latency_ms : ℚ
  max_latency_ms : ℚ
  median_fps : ℚ
  test_image_path : Str
  test_prompt : Str

/-- `statistics.median` of a sorted list. Of an even number it is the mean of the two in the
    middle, so it need not be one of the latencies; the other statistics are. -/
def median (data : List ℚ) : ℚ :=
  let n := data.length
  if n % 2 = 1 then data.getD (n / 2) 0
  else (data.getD (n / 2 - 1) 0 + data.getD (n / 2) 0) / 2

/-- `max(0, int(0.95 * (n - 1) + 0.5))` -/
def p95Idx (n : Nat) : Nat := ⌊(95 / 100 : ℚ) * ((n : ℚ) - 1) + 1 / 2⌋.toNat

/-- The result, from the latencies in the order of the runs. -/
def statistics (n_runs : Int) (path prompt : Str) (latencies_ms : List ℚ) : CalibrationResult :=
  let sorted := latencies_ms.mergeSort
  let median := median sorted
  { n_runs := n_runs
    median_latency_ms := median
    p95_latency_ms := sorted.getD (p95Idx sorted.length) 0
    min_latency_ms := sorted.getD 0 0
    max_latency_ms := sorted.getD (sorted.length - 1) 0
    median_fps := if 0 < median then 1000 / median else 0
    test_image_path := path
    test_prompt := prompt }

/-- `calibrate`: `run i` is the `i`-th call of the engine, and `latency i` the time that one
    takes. -/
def calibrate (run : Nat → EngineCall → Except Fault InferenceResult) (latency : Nat → ℚ)
    (image : CalibrationImage) (path prompt : Str) (n_runs : Int) :
    Except CalibrationFault CalibrationResult :=
  match image with
  | .notFile => .error .notFound
  | .unreadable e => .error (.unreadable e)
  | .read jpeg =>
    if jpeg = [] then .error .empty
    else if n_runs < 1 then .error (.nRuns n_runs)
    else
      match classifyPrompt prompt with
      | .error e => .error (.prompt e)
      | .ok kind =>
        let call : EngineCall := ⟨jpeg, prompt, "hybrid".toList, .str kind.wireName⟩
        match run 0 call with
        | .error e => .error (.engine e)
        | .ok warm =>
          if ¬ (warm.kind ≠ .abstained ∨ hasAbstention warm.raw_answer = true) then
            .error (.unrecognizable (warm.raw_answer.take 200))
          else
            match (List.range n_runs.toNat).mapM fun i => run (i + 1) call with
            | .error e => .error (.engine e)
            | .ok _ =>
              .ok (statistics n_runs path prompt
                ((List.range n_runs.toNat).map fun i => latency (i + 1)))

/-! ## The statistics -/

theorem getD_le_getD {data : List ℚ} (h : data.Pairwise (· ≤ ·)) {i j : Nat} (hij : i ≤ j)
    (hj : j < data.length) : data.getD i 0 ≤ data.getD j 0 := by
  rw [List.getD_eq_getElem _ _ hj, List.getD_eq_getElem _ _ (hij.trans_lt hj)]
  rcases hij.eq_or_lt with rfl | hlt
  · exact le_refl _
  · exact List.pairwise_iff_getElem.mp h i j _ hj hlt

/-- The median lies between the first and the middle one, which is all that is needed to
    compare it with the others. -/
theorem median_bounds {data : List ℚ} (h : data.Pairwise (· ≤ ·)) (hne : 0 < data.length) :
    data.getD 0 0 ≤ median data ∧ median data ≤ data.getD (data.length / 2) 0 := by
  have hhalf : data.length / 2 < data.length := Nat.div_lt_self hne (by omega)
  unfold median
  dsimp only
  split
  · exact ⟨getD_le_getD h (Nat.zero_le _) hhalf, le_refl _⟩
  · have hlow := getD_le_getD h (Nat.zero_le (data.length / 2 - 1)) (by omega)
    have hmid := getD_le_getD h (Nat.sub_le (data.length / 2) 1) hhalf
    constructor <;> linarith

theorem p95Idx_lt {n : Nat} (hn : 0 < n) : p95Idx n < n := by
  have hn' : (1 : ℚ) ≤ n := by exact_mod_cast hn
  have hlt : ⌊(95 / 100 : ℚ) * ((n : ℚ) - 1) + 1 / 2⌋ < (n : ℤ) := by
    rw [Int.floor_lt]
    push_cast
    linarith
  unfold p95Idx
  omega

/-- The rank is within a half of the exact one, from below. -/
theorem p95Idx_gt {n : Nat} (hn : 0 < n) : (95 / 100 : ℚ) * ((n : ℚ) - 1) - 1 / 2 < p95Idx n := by
  have hn' : (1 : ℚ) ≤ n := by exact_mod_cast hn
  have hfloor := Int.lt_floor_add_one ((95 / 100 : ℚ) * ((n : ℚ) - 1) + 1 / 2)
  have hpos : 0 ≤ ⌊(95 / 100 : ℚ) * ((n : ℚ) - 1) + 1 / 2⌋ := Int.floor_nonneg.mpr (by linarith)
  have hcast : ((p95Idx n : ℤ) : ℚ) = ⌊(95 / 100 : ℚ) * ((n : ℚ) - 1) + 1 / 2⌋ := by
    rw [p95Idx, Int.toNat_of_nonneg hpos]
  rw [Int.cast_natCast] at hcast
  linarith

/-- The rank is not below the middle, so the 95th percentile is no smaller than the median,
    for one run as for many. -/
theorem half_le_p95Idx {n : Nat} (hn : 0 < n) : n / 2 ≤ p95Idx n := by
  rcases Nat.lt_or_ge n 2 with hone | htwo
  · omega
  · have hgt := p95Idx_gt hn
    have hn' : (2 : ℚ) ≤ n := by exact_mod_cast htwo
    have hlt : ((n / 2 : Nat) : ℚ) < p95Idx n + 1 := by
      have := Nat.cast_div_le (α := ℚ) (m := n) (n := 2)
      push_cast at this
      linarith
    have : n / 2 < p95Idx n + 1 := by exact_mod_cast hlt
    omega

/-- No more entries of a sorted list exceed the one at `i` than come behind it. Equal
    latencies make it fewer. -/
theorem countP_gt_le {data : List ℚ} (h : data.Pairwise (· ≤ ·)) {i : Nat} (hi : i < data.length) :
    data.countP (data.getD i 0 < ·) ≤ data.length - 1 - i := by
  have hfirst : (data.take (i + 1)).countP (data.getD i 0 < ·) = 0 := by
    rw [List.countP_eq_zero]
    intro x hx
    obtain ⟨j, hj, rfl⟩ := List.mem_iff_getElem.mp hx
    rw [List.length_take] at hj
    have := getD_le_getD h (show j ≤ i by omega) hi
    rw [List.getD_eq_getElem _ _ (show j < data.length by omega)] at this
    simpa using this
  calc data.countP (data.getD i 0 < ·)
      = (data.take (i + 1)).countP (data.getD i 0 < ·) +
          (data.drop (i + 1)).countP (data.getD i 0 < ·) := by
        rw [← List.countP_append, List.take_append_drop]
    _ ≤ 0 + (data.drop (i + 1)).length := Nat.add_le_add hfirst.le List.countP_le_length
    _ = data.length - 1 - i := by rw [List.length_drop]; omega

/-- The statistics of some latencies, in order: what a client may conclude from the four
    numbers about the runs they summarize. `slower` is the one that gives the 95th percentile
    its name. -/
structure CalibrationResult.Describes (r : CalibrationResult) (latencies_ms : List ℚ) : Prop where
  min_le_median : r.min_latency_ms ≤ r.median_latency_ms
  median_le_p95 : r.median_latency_ms ≤ r.p95_latency_ms
  p95_le_max : r.p95_latency_ms ≤ r.max_latency_ms
  min_mem : r.min_latency_ms ∈ latencies_ms
  p95_mem : r.p95_latency_ms ∈ latencies_ms
  max_mem : r.max_latency_ms ∈ latencies_ms
  bounds : ∀ x ∈ latencies_ms, r.min_latency_ms ≤ x ∧ x ≤ r.max_latency_ms
  /-- Fewer than one in twenty of the others exceed the 95th percentile, rounded. -/
  slower : (latencies_ms.countP (r.p95_latency_ms < ·) : ℚ) <
    5 / 100 * ((latencies_ms.length : ℚ) - 1) + 1 / 2

theorem describes_statistics {n_runs : Int} {path prompt : Str} {latencies_ms : List ℚ}
    (hne : latencies_ms ≠ []) :
    (statistics n_runs path prompt latencies_ms).Describes latencies_ms := by
  have hperm : latencies_ms.mergeSort.Perm latencies_ms := List.mergeSort_perm _ _
  have hsorted : latencies_ms.mergeSort.Pairwise (· ≤ ·) := by
    have htrans : ∀ a b c : ℚ, decide (a ≤ b) = true → decide (b ≤ c) = true →
        decide (a ≤ c) = true := fun a b c => by simpa using le_trans
    have htotal : ∀ a b : ℚ, (decide (a ≤ b) || decide (b ≤ a)) = true :=
      fun a b => by simpa using le_total a b
    simpa using List.pairwise_mergeSort htrans htotal latencies_ms
  generalize hdata : latencies_ms.mergeSort = data at hperm hsorted
  have hlen : 0 < data.length := by
    rw [hperm.length_eq]
    exact List.length_pos_iff.mpr hne
  have hi := p95Idx_lt hlen
  have hmem : ∀ j, j < data.length → data.getD j 0 ∈ latencies_ms := fun j hj => by
    rw [List.getD_eq_getElem _ _ hj]
    exact hperm.mem_iff.mp (List.getElem_mem hj)
  obtain ⟨hmin, hmedian⟩ := median_bounds hsorted hlen
  rw [statistics, hdata]
  exact
    { min_le_median := hmin
      median_le_p95 := hmedian.trans (getD_le_getD hsorted (half_le_p95Idx hlen) hi)
      p95_le_max := getD_le_getD hsorted (by omega) (by omega)
      min_mem := hmem _ hlen
      p95_mem := hmem _ hi
      max_mem := hmem _ (by omega)
      bounds := fun x hx => by
        obtain ⟨j, hj, rfl⟩ := List.mem_iff_getElem.mp (hperm.mem_iff.mpr hx)
        rw [← List.getD_eq_getElem _ 0 hj]
        exact ⟨getD_le_getD hsorted (Nat.zero_le _) hj, getD_le_getD hsorted (by omega) (by omega)⟩
      slower := by
        have hcount := countP_gt_le hsorted hi
        rw [hperm.countP_eq] at hcount
        have hgt := p95Idx_gt hlen
        have hcast : (latencies_ms.countP (data.getD (p95Idx data.length) 0 < ·) : ℚ) ≤
            (data.length : ℚ) - 1 - p95Idx data.length := by
          have : latencies_ms.countP (data.getD (p95Idx data.length) 0 < ·) +
              1 + p95Idx data.length ≤ data.length := by omega
          have : ((latencies_ms.countP (data.getD (p95Idx data.length) 0 < ·) : Nat) : ℚ) +
              1 + p95Idx data.length ≤ data.length := by exact_mod_cast this
          linarith
        rw [← hperm.length_eq]
        dsimp only
        linarith }

/-- A timed run that raises ends the calibration, so behind a result none has. -/
theorem mapM_except_ok {ε α β : Type} {f : α → Except ε β} {xs : List α} :
    ∀ {ys : List β}, xs.mapM f = .ok ys → ∀ x ∈ xs, ∃ y, f x = .ok y := by
  induction xs with
  | nil => intro ys _ x hx; exact absurd hx (by simp)
  | cons x xs ih =>
    intro ys h z hz
    rw [List.mapM_cons] at h
    rcases hx : f x with e | y
    · rw [hx] at h
      exact absurd h (by simp [bind, Except.bind])
    · rw [hx] at h
      rcases hxs : xs.mapM f with e | ys'
      · rw [hxs] at h
        exact absurd h (by simp [bind, Except.bind])
      · rcases List.mem_cons.mp hz with rfl | hz
        · exact ⟨y, hx⟩
        · exact ih hxs z hz

/-- **What a calibration that is published rests on.** -/
theorem calibrate_describes {run : Nat → EngineCall → Except Fault InferenceResult}
    {latency : Nat → ℚ} {image : CalibrationImage} {path prompt : Str} {n_runs : Int}
    {r : CalibrationResult} (h : calibrate run latency image path prompt n_runs = .ok r) :
    ∃ jpeg kind warm, image = .read jpeg ∧ jpeg ≠ [] ∧ 1 ≤ n_runs ∧
      classifyPrompt prompt = .ok kind ∧
      run 0 ⟨jpeg, prompt, "hybrid".toList, .str kind.wireName⟩ = .ok warm ∧
      (warm.kind ≠ .abstained ∨ hasAbstention warm.raw_answer = true) ∧
      (∀ i < n_runs.toNat, ∃ result,
        run (i + 1) ⟨jpeg, prompt, "hybrid".toList, .str kind.wireName⟩ = .ok result) ∧
      r.Describes ((List.range n_runs.toNat).map fun i => latency (i + 1)) := by
  unfold calibrate at h
  cases image with
  | notFile => exact absurd h (by simp)
  | unreadable e => exact absurd h (by simp)
  | read jpeg =>
    dsimp only at h
    rw [ite_error_eq_ok, ite_error_eq_ok, not_lt] at h
    obtain ⟨hjpeg, hn, h⟩ := h
    split at h
    · exact absurd h (by simp)
    · rename_i kind hkind
      split at h
      · exact absurd h (by simp)
      · rename_i warm hwarm
        rw [ite_error_eq_ok, not_not] at h
        obtain ⟨hrec, h⟩ := h
        split at h
        · exact absurd h (by simp)
        · rename_i results hruns
          obtain rfl := Except.ok.inj h
          refine ⟨jpeg, kind, warm, rfl, hjpeg, hn, hkind, hwarm, hrec, fun i hi =>
            mapM_except_ok hruns i (List.mem_range.mpr hi), describes_statistics ?_⟩
          rw [Ne, List.map_eq_nil_iff, List.range_eq_nil]
          omega

/-- A warm result of `KIND_POINTS`. -/
def sampleWarm : InferenceResult :=
  ⟨.points, [], [], none, [], 0, false, 40, (640, 480), ⟨644, 504, 414, 1⟩⟩

theorem calibrate_describes_six :
    ∃ r, calibrate (fun _ _ => .ok sampleWarm) (fun i => 40 + i) (.read [0xFF])
        "drone_sirius.jpg".toList templates.scene_text_exact 6 = .ok r ∧
      r.Describes ((List.range 6).map fun i => 40 + ((i + 1 : Nat) : ℚ)) := by
  obtain ⟨_, _, _, -, -, -, -, -, -, -, h⟩ := calibrate_describes
    (show calibrate (fun _ _ => .ok sampleWarm) (fun i => 40 + i) (.read [0xFF])
      "drone_sirius.jpg".toList templates.scene_text_exact 6 = .ok _ from rfl)
  exact ⟨_, rfl, h⟩

end LocateAnything.Worker
