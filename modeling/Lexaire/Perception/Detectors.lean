import Lexaire.Core.Median
import Mathlib.Algebra.Order.Field.Rat
import Mathlib.Data.Fintype.Prod
import Mathlib.Data.Rat.Floor
import Mathlib.Tactic.FieldSimp

/-! The depth of a detection (`detectors.py`), in exact arithmetic: the median of a patch of
the depth image, and the box centre projected back to that depth. Numbers are rational, as
all finite floats are. -/
namespace Lexaire.Perception
open Median

/-! ## Python -/

/-- `float(None)`, and numpy's nan for the median of nothing, which stands for no number. -/
inductive Fault where
  | typeError | emptyMedian
deriving DecidableEq

/-- `int()`, toward zero. -/
def int (q : ℚ) : Int := q.num.tdiv q.den

/-- Where a bound of a slice falls in a sequence; a negative one counts from the end. -/
def sliceIndex (length : Nat) (bound : Int) : Nat :=
  if bound < 0 then (bound + length).toNat else min bound.toNat length

/-- `l[start:stop]`. -/
def slice {α : Type} (l : List α) (start stop : Int) : List α :=
  (l.take (sliceIndex l.length stop)).drop (sliceIndex l.length start)

/-- A `uint16` array of two dimensions. -/
structure DepthImage where
  height : Nat
  width : Nat
  sample : Fin height → Fin width → UInt16

def DepthImage.size (depth : DepthImage) : Nat := depth.height * depth.width

/-- `depth[y0:y1, x0:x1]`, row by row. -/
def DepthImage.patch (depth : DepthImage) (y0 y1 x0 x1 : Int) : List UInt16 :=
  (slice (List.finRange depth.height) y0 y1).flatMap fun row =>
    (slice (List.finRange depth.width) x0 x1).map (depth.sample row)

/-- A dictionary of numbers, some of which are None. -/
abbrev Intrinsics := List (String × Option ℚ)

/-- `float(intrinsics.get(key, default))`. -/
def Intrinsics.float (intrinsics : Intrinsics) (key : String) (default : ℚ) : Except Fault ℚ :=
  match intrinsics.lookup key with
  | none => .ok default
  | some none => .error .typeError
  | some (some q) => .ok q

/-- `intrinsics.get(key)`. -/
def Intrinsics.get? (intrinsics : Intrinsics) (key : String) : Option ℚ :=
  (intrinsics.lookup key).join

/-! ## The detection's depth -/

/-- The clamped corners of a box. -/
structure Corners where
  x0 : Int
  y0 : Int
  x1 : Int
  y1 : Int
deriving DecidableEq

def DepthImage.clamped (depth : DepthImage) (x y w h : ℚ) : Corners where
  x0 := max 0 (int x)
  y0 := max 0 (int y)
  x1 := min depth.width (int (x + w))
  y1 := min depth.height (int (y + h))

/-- The end of `_center_depth_and_xyz`; a missing principal point gives no position. -/
def backProject (intrinsics : Intrinsics) (cx cy zM : ℚ) :
    Except Fault (Option ℚ × Option (ℚ × ℚ × ℚ)) := do
  let fx ← intrinsics.float "fx" 0
  let fy ← intrinsics.float "fy" 0
  if fx ≤ 0 ∨ fy ≤ 0 then return (some zM, none)
  match intrinsics.get? "ppx", intrinsics.get? "ppy" with
  | some ppx, some ppy => return (some zM, some ((cx - ppx) * zM / fx, (cy - ppy) * zM / fy, zM))
  | _, _ => return (some zM, none)

/-- `np.median` of the samples, as a number. -/
def medianOf (nz : List UInt16) : Except Fault ℚ :=
  match median? (nz.map fun z => (z.toNat : ℚ) : Multiset ℚ) with
  | some m => .ok m
  | none => .error .emptyMedian

/-- The median of the patch gives the depth; the centre is that of the box as detected, not of
what is left of it in the image. -/
def centerDepthAndXyz (depth : Option DepthImage) (depthScaleM : ℚ) (intrinsics : Intrinsics)
    (x y w h : ℚ) : Except Fault (Option ℚ × Option (ℚ × ℚ × ℚ)) :=
  match depth with
  | none => return (none, none)
  | some depth => do
    if depth.size = 0 ∨ depthScaleM ≤ 0 then return (none, none)
    let cx := x + w / 2
    let cy := y + h / 2
    let c := depth.clamped x y w h
    if c.x1 ≤ c.x0 ∨ c.y1 ≤ c.y0 then return (none, none)
    let nz := (depth.patch c.y0 c.y1 c.x0 c.x1).filter (0 < ·)
    if nz.length = 0 then return (none, none)
    let zM := (← medianOf nz) * depthScaleM
    backProject intrinsics cx cy zM

/-! ## What it measures -/

/-- The pixels of the image in a box, by the integer parts of its corners. -/
def DepthImage.box (depth : DepthImage) (x y w h : ℚ) : Finset (Fin depth.height × Fin depth.width) :=
  (Finset.univ.filter fun row => int y ≤ row.val ∧ row.val < int (y + h)) ×ˢ
    Finset.univ.filter fun col => int x ≤ col.val ∧ col.val < int (x + w)

/-- The samples in a box that are not zero. -/
def DepthImage.measured (depth : DepthImage) (x y w h : ℚ) : Multiset ℚ :=
  ((depth.box x y w h).val.map fun p => ((depth.sample p.1 p.2).toNat : ℚ)).filter (0 < ·)

section
variable {depth : DepthImage} {x y w h : ℚ}

theorem sliceIndex_of_within {length : Nat} {bound : Int} (first : 0 ≤ bound)
    (last : bound ≤ length) : sliceIndex length bound = bound.toNat := by
  unfold sliceIndex
  rw [if_neg (by omega), Nat.min_eq_left (by omega)]

/-- Within the bounds of a sequence a slice is what lies between its own. -/
theorem mem_slice_finRange {n : Nat} {start stop : Int} (first : 0 ≤ start) (order : start ≤ stop)
    (last : stop ≤ n) {i : Fin n} :
    i ∈ slice (List.finRange n) start stop ↔ start ≤ i.val ∧ i.val < stop := by
  have within := i.isLt
  simp only [slice, List.mem_drop_iff_getElem, List.getElem_take, List.getElem_finRange,
    List.length_take, List.length_finRange, sliceIndex_of_within first (order.trans last),
    sliceIndex_of_within (first.trans order) last]
  constructor
  · rintro ⟨k, small, rfl⟩
    simp only [Fin.val_cast]
    omega
  · rintro ⟨above, below⟩
    refine ⟨i.val - start.toNat, by omega, ?_⟩
    ext
    simp only [Fin.val_cast]
    omega

theorem coe_slice_finRange {n : Nat} {start stop : Int} (first : 0 ≤ start) (order : start ≤ stop)
    (last : stop ≤ n) :
    (slice (List.finRange n) start stop : Multiset (Fin n)) =
      (Finset.univ.filter fun i : Fin n => start ≤ i.val ∧ i.val < stop).val := by
  have distinct : (slice (List.finRange n) start stop).Nodup :=
    ((List.nodup_finRange n).sublist (List.take_sublist _ _)).sublist (List.drop_sublist _ _)
  apply (Multiset.Nodup.ext (Multiset.coe_nodup.mpr distinct) (Finset.nodup _)).mpr
  intro i
  simp [mem_slice_finRange first order last]

variable {c : Corners}

/-- Clamping keeps the bounds of a slice in the image, unless nothing is left. -/
theorem clamped_inside (corners : depth.clamped x y w h = c) (shown : ¬ (c.x1 ≤ c.x0 ∨ c.y1 ≤ c.y0)) :
    (0 ≤ c.x0 ∧ c.x0 < c.x1 ∧ c.x1 ≤ depth.width) ∧
      0 ≤ c.y0 ∧ c.y0 < c.y1 ∧ c.y1 ≤ depth.height := by
  subst corners
  simp only [DepthImage.clamped] at shown ⊢
  omega

theorem box_clamped (corners : depth.clamped x y w h = c) : depth.box x y w h =
    (Finset.univ.filter fun row => c.y0 ≤ row.val ∧ row.val < c.y1) ×ˢ
      Finset.univ.filter fun col => c.x0 ≤ col.val ∧ col.val < c.x1 := by
  subst corners
  unfold DepthImage.box DepthImage.clamped
  dsimp only
  congr 1
  · apply Finset.filter_congr
    intro row _
    have within := row.isLt
    omega
  · apply Finset.filter_congr
    intro col _
    have within := col.isLt
    omega

theorem box_empty (corners : depth.clamped x y w h = c) (hidden : c.x1 ≤ c.x0 ∨ c.y1 ≤ c.y0) :
    depth.box x y w h = ∅ := by
  rw [box_clamped corners, Finset.product_eq_empty, Finset.filter_eq_empty_iff,
    Finset.filter_eq_empty_iff]
  rcases hidden with hidden | hidden
  · right
    intro col _
    omega
  · left
    intro row _
    omega

/-- The patch is the box. -/
theorem patch_box (corners : depth.clamped x y w h = c) (shown : ¬ (c.x1 ≤ c.x0 ∨ c.y1 ≤ c.y0)) :
    (depth.patch c.y0 c.y1 c.x0 c.x1 : Multiset UInt16) =
      (depth.box x y w h).val.map fun p => depth.sample p.1 p.2 := by
  obtain ⟨⟨left, across, right⟩, top, down, bottom⟩ := clamped_inside corners shown
  rw [box_clamped corners, Finset.product_val, ← coe_slice_finRange top down.le bottom,
    ← coe_slice_finRange left across.le right, Multiset.coe_product, Multiset.map_coe,
    DepthImage.patch]
  simp only [SProd.sprod, List.product, List.map_flatMap, List.map_map]
  rfl

theorem measured_patch (corners : depth.clamped x y w h = c)
    (shown : ¬ (c.x1 ≤ c.x0 ∨ c.y1 ≤ c.y0)) :
    ((((depth.patch c.y0 c.y1 c.x0 c.x1).filter (0 < ·)).map fun z => (z.toNat : ℚ)) : Multiset ℚ) =
      depth.measured x y w h := by
  have number : ((fun q : ℚ => decide (0 < q)) ∘ fun z : UInt16 => (z.toNat : ℚ)) =
      fun z => decide (0 < z) := by
    funext z
    simp [UInt16.lt_iff_toNat_lt]
  have samples := congrArg (Multiset.map fun z => (z.toNat : ℚ)) (patch_box corners shown)
  rw [Multiset.map_map, Multiset.map_coe] at samples
  calc ((((depth.patch c.y0 c.y1 c.x0 c.x1).filter (0 < ·)).map fun z => (z.toNat : ℚ)) : Multiset ℚ)
      = (((depth.patch c.y0 c.y1 c.x0 c.x1).map fun z => (z.toNat : ℚ)).filter (0 < ·) :
          List ℚ) := by rw [List.filter_map, number]
    _ = depth.measured x y w h := by
      rw [← Multiset.filter_coe, samples]
      rfl

/-- What it returns depends on the samples that are not zero in the box, and on nothing else
in the image. -/
theorem centerDepthAndXyz_eq (nonempty : depth.size ≠ 0) {depthScaleM : ℚ}
    (positive : 0 < depthScaleM) (intrinsics : Intrinsics) :
    centerDepthAndXyz (some depth) depthScaleM intrinsics x y w h =
      match median? (depth.measured x y w h) with
      | none => .ok (none, none)
      | some m => backProject intrinsics (x + w / 2) (y + h / 2) (m * depthScaleM) := by
  simp only [centerDepthAndXyz, nonempty, not_le.mpr positive, or_self, if_false]
  generalize corners : depth.clamped x y w h = c
  by_cases shown : c.x1 ≤ c.x0 ∨ c.y1 ≤ c.y0
  · have nothing : depth.measured x y w h = 0 := by
      rw [DepthImage.measured, box_empty corners shown]
      rfl
    rw [if_pos shown, nothing, median?_zero]
    rfl
  · have samples := measured_patch corners shown
    rw [if_neg shown, ← samples]
    generalize (depth.patch c.y0 c.y1 c.x0 c.x1).filter (0 < ·) = nz
    cases nz with
    | nil =>
      rw [if_pos List.length_nil, List.map_nil, Multiset.coe_nil, median?_zero]
      rfl
    | cons z nz =>
      have some : (((z :: nz).map fun z => (z.toNat : ℚ)) : Multiset ℚ) ≠ 0 := by
        simp
      obtain ⟨m, median, -⟩ := exists_median some
      rw [if_neg (by simp), medianOf, median]
      rfl

theorem mem_measured {q : ℚ} : q ∈ depth.measured x y w h ↔
    ∃ p ∈ depth.box x y w h, 0 < depth.sample p.1 p.2 ∧ ((depth.sample p.1 p.2).toNat : ℚ) = q := by
  simp only [DepthImage.measured, Multiset.mem_filter, Multiset.mem_map, Finset.mem_val]
  constructor
  · rintro ⟨⟨p, inside, rfl⟩, positive⟩
    refine ⟨p, inside, ?_, rfl⟩
    rw [UInt16.lt_iff_toNat_lt]
    exact_mod_cast positive
  · rintro ⟨p, inside, positive, rfl⟩
    refine ⟨⟨p, inside, rfl⟩, ?_⟩
    rw [UInt16.lt_iff_toNat_lt] at positive
    exact_mod_cast positive

theorem measured_congr {sample : Fin depth.height → Fin depth.width → UInt16}
    (same : ∀ p ∈ depth.box x y w h, sample p.1 p.2 = depth.sample p.1 p.2) :
    ({ depth with sample } : DepthImage).measured x y w h = depth.measured x y w h := by
  unfold DepthImage.measured
  congr 1
  apply Multiset.map_congr rfl
  intro p inside
  exact congrArg (fun z : UInt16 => (z.toNat : ℚ)) (same p inside)

/-- The focal lengths are numbers where they are there; the principal point may be None. -/
def Intrinsics.Focal (intrinsics : Intrinsics) : Prop :=
  intrinsics.lookup "fx" ≠ some none ∧ intrinsics.lookup "fy" ≠ some none

theorem float_of_focal {intrinsics : Intrinsics} {key : String}
    (focal : intrinsics.lookup key ≠ some none) : ∃ f, intrinsics.float key 0 = .ok f ∧
      ∀ g, 0 < g → (intrinsics.lookup key = some (some g) ↔ f = g) := by
  unfold Intrinsics.float
  cases found : intrinsics.lookup key with
  | none =>
    refine ⟨0, rfl, fun g positive => iff_of_false nofun ?_⟩
    exact positive.ne
  | some value =>
    cases value with
    | none => exact absurd found focal
    | some f => exact ⟨f, rfl, fun g _ => by simp⟩

/-- What a position takes: focal lengths to divide by, and a principal point. -/
structure Intrinsics.Complete (intrinsics : Intrinsics) : Prop where
  horizontal : ∃ fx ppx, 0 < fx ∧ intrinsics.lookup "fx" = some (some fx) ∧
    intrinsics.lookup "ppx" = some (some ppx)
  vertical : ∃ fy ppy, 0 < fy ∧ intrinsics.lookup "fy" = some (some fy) ∧
    intrinsics.lookup "ppy" = some (some ppy)

/-- The projection of a point of the camera's frame, with the same intrinsics. -/
structure Projects (intrinsics : Intrinsics) (point : ℚ × ℚ × ℚ) (u v : ℚ) : Prop where
  horizontal : ∃ fx ppx, intrinsics.lookup "fx" = some (some fx) ∧
    intrinsics.lookup "ppx" = some (some ppx) ∧ fx * point.1 / point.2.2 + ppx = u
  vertical : ∃ fy ppy, intrinsics.lookup "fy" = some (some fy) ∧
    intrinsics.lookup "ppy" = some (some ppy) ∧ fy * point.2.1 / point.2.2 + ppy = v

/-- The depth is always given, and with complete intrinsics a position that projects to the
centre. -/
theorem backProject_ok {intrinsics : Intrinsics} (focal : intrinsics.Focal) {cx cy zM : ℚ}
    (positive : 0 < zM) : ∃ xyz, backProject intrinsics cx cy zM = .ok (some zM, xyz) ∧
      (xyz.isSome = true ↔ intrinsics.Complete) ∧
      ∀ point, xyz = some point → point.2.2 = zM ∧ Projects intrinsics point cx cy := by
  obtain ⟨fx, width, horizontal⟩ := float_of_focal focal.1
  obtain ⟨fy, height, vertical⟩ := float_of_focal focal.2
  simp only [backProject, width, height, bind, Except.bind]
  by_cases flat : fx ≤ 0 ∨ fy ≤ 0
  · rw [if_pos flat]
    refine ⟨none, rfl, iff_of_false nofun fun complete => ?_, fun _ given => by cases given⟩
    obtain ⟨f, -, fPositive, left, -⟩ := complete.horizontal
    obtain ⟨g, -, gPositive, top, -⟩ := complete.vertical
    obtain rfl := (horizontal f fPositive).mp left
    obtain rfl := (vertical g gPositive).mp top
    exact flat.elim (not_le.mpr fPositive) (not_le.mpr gPositive)
  rw [if_neg flat]
  obtain ⟨fxPositive, fyPositive⟩ : 0 < fx ∧ 0 < fy := by simpa using flat
  have fxThere := (horizontal fx fxPositive).mpr rfl
  have fyThere := (vertical fy fyPositive).mpr rfl
  cases left : intrinsics.get? "ppx" with
  | none =>
    refine ⟨none, rfl, iff_of_false nofun fun complete => ?_, fun _ given => by cases given⟩
    obtain ⟨-, ppx, -, -, there⟩ := complete.horizontal
    simp [Intrinsics.get?, there] at left
  | some ppx =>
    cases top : intrinsics.get? "ppy" with
    | none =>
      refine ⟨none, rfl, iff_of_false nofun fun complete => ?_, fun _ given => by cases given⟩
      obtain ⟨-, ppy, -, -, there⟩ := complete.vertical
      simp [Intrinsics.get?, there] at top
    | some ppy =>
      have ppxThere := Option.join_eq_some_iff.mp left
      have ppyThere := Option.join_eq_some_iff.mp top
      refine ⟨_, rfl, iff_of_true rfl ⟨⟨fx, ppx, fxPositive, fxThere, ppxThere⟩,
        ⟨fy, ppy, fyPositive, fyThere, ppyThere⟩⟩, ?_⟩
      rintro point ⟨⟩
      refine ⟨rfl, ⟨fx, ppx, fxThere, ppxThere, ?_⟩, ⟨fy, ppy, fyThere, ppyThere, ?_⟩⟩
      · have nonzero := fxPositive.ne'
        have deep := positive.ne'
        field_simp
        ring
      · have nonzero := fyPositive.ne'
        have deep := positive.ne'
        field_simp
        ring

/-- The depth of a detection: where there is one, of what, when it comes with a position and
how that is related to the box. -/
theorem center_depth_sound (nonempty : depth.size ≠ 0) {depthScaleM : ℚ}
    (positive : 0 < depthScaleM) {intrinsics : Intrinsics} (focal : intrinsics.Focal) (x y w h : ℚ) :
    (∀ c, depth.clamped x y w h = c → ¬ (c.x1 ≤ c.x0 ∨ c.y1 ≤ c.y0) →
      (0 ≤ c.x0 ∧ c.x0 < c.x1 ∧ c.x1 ≤ depth.width) ∧
        0 ≤ c.y0 ∧ c.y0 < c.y1 ∧ c.y1 ≤ depth.height) ∧
    ∃ z xyz, centerDepthAndXyz (some depth) depthScaleM intrinsics x y w h = .ok (z, xyz) ∧
      (z.isSome = true ↔ ∃ p ∈ depth.box x y w h, 0 < depth.sample p.1 p.2) ∧
      (∀ d, z = some d → 0 < d ∧ ∃ m, median? (depth.measured x y w h) = some m ∧
        IsMedian m (depth.measured x y w h) ∧ d = depthScaleM * m ∧
        ∃ least ∈ depth.measured x y w h, ∃ greatest ∈ depth.measured x y w h,
          (∀ q ∈ depth.measured x y w h, least ≤ q ∧ q ≤ greatest) ∧
          depthScaleM * least ≤ d ∧ d ≤ depthScaleM * greatest) ∧
      (∀ sample : Fin depth.height → Fin depth.width → UInt16,
        (∀ p ∈ depth.box x y w h, sample p.1 p.2 = depth.sample p.1 p.2) →
        centerDepthAndXyz (some { depth with sample }) depthScaleM intrinsics x y w h =
          .ok (z, xyz)) ∧
      (xyz.isSome = true ↔ z.isSome = true ∧ intrinsics.Complete) ∧
      ∀ point, xyz = some point → z = some point.2.2 ∧
        Projects intrinsics point (x + w / 2) (y + h / 2) := by
  refine ⟨fun _ => clamped_inside, ?_⟩
  have shape (sample : Fin depth.height → Fin depth.width → UInt16)
      (same : ∀ p ∈ depth.box x y w h, sample p.1 p.2 = depth.sample p.1 p.2) :
      centerDepthAndXyz (some { depth with sample }) depthScaleM intrinsics x y w h =
        centerDepthAndXyz (some depth) depthScaleM intrinsics x y w h := by
    rw [centerDepthAndXyz_eq nonempty positive, ← measured_congr same]
    exact @centerDepthAndXyz_eq { depth with sample } x y w h nonempty depthScaleM positive intrinsics
  rw [centerDepthAndXyz_eq nonempty positive] at shape ⊢
  by_cases dark : depth.measured x y w h = 0
  · rw [dark, median?_zero] at shape ⊢
    refine ⟨none, none, rfl, ?_, fun _ given => (by cases given), shape,
      iff_of_false nofun fun both => (by cases both.1), fun _ given => (by cases given)⟩
    constructor
    · intro given
      cases given
    · rintro ⟨p, inside, lit⟩
      have member := mem_measured.mpr ⟨p, inside, lit, rfl⟩
      rw [dark] at member
      cases member
  · obtain ⟨m, median, isMedian⟩ := exists_median dark
    obtain ⟨least, first, greatest, last, bounds, above, below⟩ := isMedian.between dark
    obtain ⟨p, inside, lit, rfl⟩ := mem_measured.mp first
    have deep : 0 < m := by
      have sample : (0 : ℚ) < (depth.sample p.1 p.2).toNat := by
        rw [UInt16.lt_iff_toNat_lt] at lit
        exact_mod_cast lit
      exact sample.trans_le above
    obtain ⟨xyz, projected, given, position⟩ := @backProject_ok intrinsics focal (x + w / 2) (y + h / 2)
      (m * depthScaleM) (mul_pos deep positive)
    rw [median] at shape ⊢
    simp only [projected] at shape ⊢
    refine ⟨_, xyz, rfl, iff_of_true rfl ⟨p, inside, lit⟩, ?_, shape, ?_, ?_⟩
    · rintro d ⟨⟩
      refine ⟨mul_pos deep positive, m, rfl, isMedian, mul_comm _ _, _, first, greatest, last, bounds,
        ?_, ?_⟩
      · rw [mul_comm]
        exact mul_le_mul_of_nonneg_right above positive.le
      · rw [mul_comm depthScaleM]
        exact mul_le_mul_of_nonneg_right below positive.le
    · rw [given]
      exact ⟨fun complete => ⟨rfl, complete⟩, fun both => both.2⟩
    · intro point given
      obtain ⟨depth_eq, projects⟩ := position point given
      exact ⟨congrArg some depth_eq.symm, projects⟩

end

/-- A box that hangs out of the frame, over two samples and two holes. -/
theorem center_depth_sound_partly :
    let depth : DepthImage := ⟨2, 2, fun row col => if row = col then 0 else 500⟩
    let intrinsics := [("fx", some 600), ("fy", some 600), ("ppx", some 1), ("ppy", some 1)]
    ∃ z point, centerDepthAndXyz (some depth) (1 / 1000) intrinsics (-1 / 2) (-1 / 2) 3 3 =
      .ok (some z, some point) ∧ z = point.2.2 ∧ Projects intrinsics point 1 1 := by
  intro depth intrinsics
  obtain ⟨-, z, xyz, ran, lit, -, -, given, position⟩ :=
    @center_depth_sound depth (by decide) (1 / 1000) (by norm_num) intrinsics ⟨nofun, nofun⟩
      (-1 / 2) (-1 / 2) 3 3
  have complete : Intrinsics.Complete intrinsics :=
    ⟨⟨600, 1, by norm_num, rfl, rfl⟩, ⟨600, 1, by norm_num, rfl, rfl⟩⟩
  have shown := given.mpr ⟨lit.mpr ⟨(0, 1), by decide +kernel, by decide⟩, complete⟩
  obtain ⟨point, rfl⟩ := Option.isSome_iff_exists.mp shown
  obtain ⟨rfl, projects⟩ := position point rfl
  norm_num at projects
  exact ⟨_, point, ran, rfl, projects⟩

end Lexaire.Perception
