import LocateAnything.Lib.Greedy
import LocateAnything.Worker.Tiling

/-!
# Non-maximum suppression

`nms` is greedy suppression with the area as the score, where two detections clash if their
overlap reaches the threshold and, with `label_aware`, their labels are equal
(`nms_eq_suppress`).

The boxes of different tiles overlap, so an object near a border is detected more than once.
The model emits no calibrated confidence that could decide between the detections; the area
stands in for it, and that a large box absorbs a tiny one is accepted. What the code then does
is an instance of the general algorithm, and everything said here follows from that and from
`iou`'s symmetry. The clash is no equivalence (two boxes may each overlap a third and not each
other), so what is kept does depend on the order in which boxes are looked at, and the
statements are about the result and not about groups of boxes.
-/

set_option autoImplicit false

namespace LocateAnything.Worker.Tiling

variable {ρ : Type}

/-- One of the two has to go. -/
def Clash (iou_threshold : ℚ) (label_aware : Bool) (b k : Detected ρ) : Prop :=
  (label_aware = true → b.label = k.label) ∧ iou_threshold ≤ iou b.bbox_px k.bbox_px

instance (iou_threshold : ℚ) (label_aware : Bool) :
    DecidableRel (Clash (ρ := ρ) iou_threshold label_aware) :=
  fun _ _ => inferInstanceAs (Decidable (_ ∧ _))

/-- The score: the model gives none. -/
def areaOf (d : Detected ρ) : ℚ := area d.bbox_px

theorem Clash.symm {t : ℚ} {aware : Bool} {b k : Detected ρ} (h : Clash t aware b k) :
    Clash t aware k b :=
  ⟨fun ha => (h.1 ha).symm, iou_comm b.bbox_px k.bbox_px ▸ h.2⟩

/-- The code's loop over the boxes kept so far, as a statement. -/
theorem isDup_eq_true_iff {t : ℚ} {aware : Bool} {keep : List (Detected ρ)} {b : Detected ρ} :
    isDup t aware keep b = true ↔ ∃ k ∈ keep, Clash t aware b k := by
  rw [isDup, List.any_eq_true]
  refine exists_congr fun k => and_congr_right fun _ => ?_
  unfold Clash
  cases aware with
  | false => simp
  | true => by_cases hl : b.label = k.label <;> simp [hl]

/-- Python's `sorted` is stable, also with `reverse=True`, as the library's sort is. -/
theorem nms_eq_suppress (t : ℚ) (aware : Bool) (boxes : List (Detected ρ)) :
    nms t aware boxes = Greedy.suppress areaOf (Clash t aware) boxes := by
  have hstep : (fun keep b => if isDup t aware keep b then keep else keep ++ [b])
      = Greedy.step (Clash (ρ := ρ) t aware) := by
    funext keep b
    rw [Greedy.step]
    exact if_congr isDup_eq_true_iff rfl rfl
  unfold nms
  cases boxes with
  | nil => rfl
  | cons b boxes =>
    rw [hstep]
    rfl

/-- **`nms` keeps as much as the threshold allows, and the larger of what clashes.** -/
theorem nms_exact (t : ℚ) (aware : Bool) (boxes : List (Detected ρ)) :
    (nms t aware boxes).Subperm boxes ∧
      (nms t aware boxes).Pairwise (fun a b => area b.bbox_px ≤ area a.bbox_px) ∧
      (nms t aware boxes).Pairwise (fun a b => (aware = true → a.label = b.label) →
        iou a.bbox_px b.bbox_px < t ∧ iou b.bbox_px a.bbox_px < t) ∧
      (∀ removed, (nms t aware boxes ++ removed).Perm boxes → ∀ d ∈ removed,
        ∃ k ∈ nms t aware boxes, area d.bbox_px ≤ area k.bbox_px ∧
          (aware = true → k.label = d.label) ∧ t ≤ iou d.bbox_px k.bbox_px) ∧
      nms t aware (nms t aware boxes) = nms t aware boxes ∧
      (aware = true → ∀ l : Option Str, (nms t aware boxes).filter (fun d => d.label = l) =
        nms t aware (boxes.filter fun d => d.label = l)) := by
  simp only [nms_eq_suppress]
  refine ⟨Greedy.suppress_subperm .., Greedy.pairwise_score .., ?_, ?_,
    Greedy.suppress_suppress .., ?_⟩
  · refine (Greedy.pairwise_not_clash areaOf (Clash t aware) boxes).imp ?_
    intro a b hclash hlabel
    have hba : iou b.bbox_px a.bbox_px < t :=
      not_le.mp fun hle => hclash ⟨fun ha => (hlabel ha).symm, hle⟩
    exact ⟨iou_comm b.bbox_px a.bbox_px ▸ hba, hba⟩
  · intro removed hperm d hd
    obtain ⟨k, hk, hclash, hscore⟩ := Greedy.exists_kept areaOf (Clash t aware) hperm hd
    exact ⟨k, hk, hscore, hclash.symm.1, hclash.2⟩
  · intro haware l
    refine Greedy.filter_suppress areaOf (Clash t aware) (fun b k hclash => ?_) boxes
    rw [hclash.1 haware]

/-- The larger of two boxes on the same spot, and the one of another label. -/
example :
    (nms (1 / 2) true
      [⟨⟨0, 0, 9, 10⟩, some "cat".toList, 0⟩, ⟨⟨0, 0, 10, 10⟩, some "cat".toList, 1⟩,
        ⟨⟨0, 0, 9, 10⟩, some "dog".toList, 2⟩]).map (·.rest) = [1, 2] := by decide +kernel

end LocateAnything.Worker.Tiling
