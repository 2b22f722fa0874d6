import ToaruPanel.Basic

/-!
# The panel's horizontal layout

`PanelWindow.draw` walks the widgets left to right with a running `offset`.  A widget
declares a width, or `-1` to take the space the others leave.  For a fixed widget
`remaining` is `0` and the offset moves on by the width; for the flexible one
`remaining` is the panel width less the widths of every widget after it, and the offset
moves to `remaining`.  `PanelWindow.mouse_action` repeats the same walk to find the
widget under the pointer, stopping at the first whose extent holds it.

The extent of a widget is `[offset, offset + width)` when its width is fixed and
`[offset, remaining)` for the flexible widget (`extentsFrom`), starting at the offset the
draw passes the widget (`extentsFrom_eq_drawArgs`).  With one flexible widget
and non-negative fixed widths, the extents tile `[0, W)` exactly when the panel width `W`
is at least the sum of the fixed widths (`extents_partition_iff`).  Below that the
flexible extent is reversed and the widgets after it start to the left of where the
ones before it end.  When the extents do tile the panel, the hit test finds the one
widget whose extent holds the pointer (`widgetUnderMouse_of_tiles`).

`IsRun a l b` says the extents `l` run from `a` to `b`, each starting where the last ended
and none reversed.  Covering and disjointness are proved once for runs.
-/

namespace ToaruPanel

/-- `remaining` for a widget of width `w` followed by widgets of widths `rest`. -/
def remainingAfter (width w : Int) (rest : List Int) : Int :=
  if w ≠ -1 then 0 else width - rest.sum

/-- `offset + widget.width if widget.width != -1 else remaining`: where the widget ends. -/
def nextOffset (offset w remaining : Int) : Int :=
  if w ≠ -1 then offset + w else remaining

/-- The `(offset, remaining)` that `PanelWindow.draw` passes to each widget's `draw`. -/
def drawArgs (width : Int) : Int → List Int → List (Int × Int)
  | _, [] => []
  | offset, w :: rest =>
    (offset, remainingAfter width w rest) ::
      drawArgs width (nextOffset offset w (remainingAfter width w rest)) rest

/-- The extent `[offset, right)` each widget gets from the draw. -/
def extentsFrom (width : Int) : Int → List Int → List (Int × Int)
  | _, [] => []
  | offset, w :: rest =>
    (offset, nextOffset offset w (remainingAfter width w rest)) ::
      extentsFrom width (nextOffset offset w (remainingAfter width w rest)) rest

/-- The hit test of `PanelWindow.mouse_action`: the index of the first widget whose extent
holds `x`. -/
def widgetUnderMouse (width x : Int) : Int → List Int → Option Nat
  | _, [] => none
  | offset, w :: rest =>
    if x ≥ offset ∧ x < nextOffset offset w (remainingAfter width w rest) then some 0
    else (widgetUnderMouse width x (nextOffset offset w (remainingAfter width w rest)) rest).map
      (· + 1)

/-- The extents of a panel of width `width`. -/
def extents (width : Int) (widths : List Int) : List (Int × Int) := extentsFrom width 0 widths

/-- `x` lies in the extent `e`. -/
def InExtent (x : Int) (e : Int × Int) : Prop := e.1 ≤ x ∧ x < e.2

instance (x : Int) : DecidablePred (InExtent x) := fun _ => inferInstanceAs (Decidable (_ ∧ _))

/-- The sum of the fixed widths. -/
def fixedSum (widths : List Int) : Int := (widths.filter (· ≠ -1)).sum

/-- Every extent starts where the previous one ended. -/
def Contiguous (l : List (Int × Int)) : Prop := l.Chain' (fun e f => e.2 = f.1)

/-- No point lies in two extents. -/
def PairwiseDisjoint (l : List (Int × Int)) : Prop :=
  l.Pairwise (fun e f => ∀ x, ¬ (InExtent x e ∧ InExtent x f))

/-- The extents are contiguous, pairwise disjoint and their union is `[0, width)`. -/
def TilesPanel (width : Int) (l : List (Int × Int)) : Prop :=
  Contiguous l ∧ PairwiseDisjoint l ∧ ∀ x, (∃ e ∈ l, InExtent x e) ↔ 0 ≤ x ∧ x < width

/-- The extents `l` run from `a` to `b`, each starting where the last ended, none reversed. -/
def IsRun : Int → List (Int × Int) → Int → Prop
  | a, [], b => a = b
  | a, e :: l, b => e.1 = a ∧ e.1 ≤ e.2 ∧ IsRun e.2 l b

/-! ## Runs of extents -/

theorem IsRun.start_le {a b : Int} : ∀ {l : List (Int × Int)}, IsRun a l b → ∀ e ∈ l, a ≤ e.1
  | [], _, _, he => absurd he (List.not_mem_nil _)
  | f :: l, ⟨h1, h2, hl⟩, e, he => by
    rcases List.mem_cons.mp he with rfl | he
    · omega
    · have := IsRun.start_le hl e he; omega

/-- A run never ends before it starts. -/
theorem IsRun.le_end {a b : Int} : ∀ {l : List (Int × Int)}, IsRun a l b → a ≤ b
  | [], h => le_of_eq h
  | _ :: _, ⟨h1, h2, hl⟩ => by have := IsRun.le_end hl; omega

/-- A run from `a` to `b` covers exactly `[a, b)`. -/
theorem IsRun.cover {a b : Int} (x : Int) : ∀ {l : List (Int × Int)}, IsRun a l b →
    ((∃ e ∈ l, InExtent x e) ↔ a ≤ x ∧ x < b)
  | [], h => by simp only [IsRun] at h; subst h; simp
  | f :: l, ⟨h1, h2, hl⟩ => by
    have := hl.le_end
    simp only [List.mem_cons, exists_eq_or_imp]
    rw [IsRun.cover x hl]
    simp only [InExtent]
    omega

theorem IsRun.pairwiseDisjoint {a b : Int} : ∀ {l : List (Int × Int)}, IsRun a l b →
    PairwiseDisjoint l
  | [], _ => List.Pairwise.nil
  | f :: l, ⟨_, _, hl⟩ => by
    refine List.Pairwise.cons (fun e he x ⟨hf, hx⟩ => ?_) (IsRun.pairwiseDisjoint hl)
    have := IsRun.start_le hl e he
    simp only [InExtent] at hf hx
    omega

theorem IsRun.append {a b c : Int} : ∀ {l : List (Int × Int)} {l' : List (Int × Int)},
    IsRun a l b → IsRun b l' c → IsRun a (l ++ l') c
  | [], _, h, h' => by simp only [IsRun] at h; subst h; exact h'
  | _ :: _, _, ⟨h1, h2, hl⟩, h' => ⟨h1, h2, IsRun.append hl h'⟩

/-! ## The draw loop -/

@[simp] theorem extentsFrom_nil (width offset : Int) : extentsFrom width offset [] = [] := rfl

/-- The extents are the draw's own: each starts at the offset `PanelWindow.draw` passes the
widget and ends where the walk moves on from it. -/
theorem extentsFrom_eq_drawArgs (width : Int) : ∀ (offset : Int) (widths : List Int),
    extentsFrom width offset widths =
      List.zipWith (fun a w => (a.1, nextOffset a.1 w a.2)) (drawArgs width offset widths) widths
  | _, [] => rfl
  | offset, w :: rest => by
    rw [extentsFrom, drawArgs, List.zipWith_cons_cons, extentsFrom_eq_drawArgs width _ rest]

theorem extentsFrom_contiguous (width : Int) : ∀ (offset : Int) (widths : List Int),
    Contiguous (extentsFrom width offset widths)
  | _, [] => List.chain'_nil
  | _, [_] => List.chain'_singleton _
  | offset, w :: v :: rest => by
    have := extentsFrom_contiguous width
      (nextOffset offset w (remainingAfter width w (v :: rest))) (v :: rest)
    simp only [extentsFrom, Contiguous] at this ⊢
    exact List.Chain'.cons rfl this

/-- Fixed widths: the draw lays them end to end from `offset`. -/
theorem extentsFrom_fixed_run (width : Int) : ∀ (offset : Int) (widths : List Int),
    (∀ w ∈ widths, w ≠ -1 ∧ 0 ≤ w) → IsRun offset (extentsFrom width offset widths) (offset + widths.sum)
  | offset, [], _ => by simp [IsRun]
  | offset, w :: rest, h => by
    have hw := h w (List.mem_cons_self _ _)
    have ih := extentsFrom_fixed_run width (offset + w) rest
      (fun v hv => h v (List.mem_cons_of_mem _ hv))
    simp only [extentsFrom, nextOffset, remainingAfter, hw.1, ne_eq, not_false_eq_true, if_true,
      List.sum_cons] at ih ⊢
    exact ⟨rfl, by omega, by rwa [← add_assoc]⟩

theorem extentsFrom_fixed_append (width : Int) : ∀ (offset : Int) (pre rest : List Int),
    (∀ w ∈ pre, w ≠ -1) →
    extentsFrom width offset (pre ++ rest) =
      extentsFrom width offset pre ++ extentsFrom width (offset + pre.sum) rest
  | offset, [], rest, _ => by simp
  | offset, w :: pre, rest, h => by
    have hw : w ≠ -1 := h w (List.mem_cons_self _ _)
    have ih := extentsFrom_fixed_append width (offset + w) pre rest
      (fun v hv => h v (List.mem_cons_of_mem _ hv))
    simp only [List.cons_append, extentsFrom, nextOffset, remainingAfter, hw, ne_eq,
      not_false_eq_true, if_true, List.sum_cons, List.append_eq, ih, ← add_assoc]

theorem extentsFrom_flexible (width offset : Int) (post : List Int) :
    extentsFrom width offset (-1 :: post) =
      (offset, width - post.sum) :: extentsFrom width (width - post.sum) post := by
  simp [extentsFrom, nextOffset, remainingAfter]

theorem widgetUnderMouse_eq_firstIndex (width x : Int) : ∀ (offset : Int) (widths : List Int),
    widgetUnderMouse width x offset widths = firstIndex (InExtent x) (extentsFrom width offset widths)
  | _, [] => rfl
  | offset, w :: rest => by
    simp only [widgetUnderMouse, extentsFrom, firstIndex, InExtent, ge_iff_le,
      widgetUnderMouse_eq_firstIndex width x _ rest]

/-- The widget the hit test finds starts, in the draw, at or left of the pointer. -/
theorem widgetUnderMouse_drawArgs (width x : Int) : ∀ (offset : Int) (widths : List Int) (i : Nat),
    widgetUnderMouse width x offset widths = some i →
      ∃ a, (drawArgs width offset widths)[i]? = some a ∧ a.1 ≤ x
  | _, [], _, h => by simp [widgetUnderMouse] at h
  | offset, w :: rest, i, h => by
    unfold widgetUnderMouse at h
    split at h
    · next hx => cases h; exact ⟨(offset, remainingAfter width w rest), by simp [drawArgs], hx.1⟩
    · obtain ⟨j, hj, rfl⟩ := Option.map_eq_some'.mp h
      obtain ⟨a, ha, hax⟩ := widgetUnderMouse_drawArgs width x _ rest j hj
      exact ⟨a, by simpa [drawArgs] using ha, hax⟩

/-! ## One flexible widget -/

/-- A width list with exactly one `-1` is fixed widths, the flexible widget, fixed widths. -/
theorem split_flexible {widths : List Int} (hone : widths.count (-1) = 1) :
    ∃ pre post, widths = pre ++ -1 :: post ∧ (∀ w ∈ pre, w ≠ -1) ∧ ∀ w ∈ post, w ≠ -1 := by
  obtain ⟨pre, post, rfl⟩ := List.append_of_mem
    (List.count_pos_iff.mp (show 0 < widths.count (-1) by omega))
  simp only [List.count_append, List.count_cons_self] at hone
  refine ⟨pre, post, rfl, fun w hw hw1 => ?_, fun w hw hw1 => ?_⟩ <;> subst hw1
  · have := List.count_pos_iff.mpr hw; omega
  · have := List.count_pos_iff.mpr hw; omega

theorem fixedSum_split {pre post : List Int} (hpre : ∀ w ∈ pre, w ≠ -1)
    (hpost : ∀ w ∈ post, w ≠ -1) : fixedSum (pre ++ -1 :: post) = pre.sum + post.sum := by
  have hp : pre.filter (· ≠ -1) = pre := List.filter_eq_self.mpr fun w hw => by simpa using hpre w hw
  have hq : post.filter (· ≠ -1) = post :=
    List.filter_eq_self.mpr fun w hw => by simpa using hpost w hw
  rw [fixedSum, List.filter_append, List.filter_cons, hp, hq]
  simp

/-- The extents of a panel with one flexible widget: the fixed run before it, the flexible
extent `[sum before, W - sum after)`, the fixed run after it. -/
theorem extents_split {pre post : List Int} (hpre : ∀ w ∈ pre, w ≠ -1) (width : Int) :
    extents width (pre ++ -1 :: post) =
      extentsFrom width 0 pre ++ (pre.sum, width - post.sum) ::
        extentsFrom width (width - post.sum) post := by
  simp [extents, extentsFrom_fixed_append width 0 pre _ hpre, extentsFrom_flexible]

/-- With one flexible widget and non-negative fixed widths, the extents tile `[0, W)` exactly
when `W` covers the fixed widths. -/
theorem extents_partition_iff {widths : List Int} {width : Int} (hone : widths.count (-1) = 1)
    (hfixed : ∀ w ∈ widths, w ≠ -1 → 0 ≤ w) (hW : 0 ≤ width) :
    TilesPanel width (extents width widths) ↔ fixedSum widths ≤ width := by
  obtain ⟨pre, post, rfl, hpre, hpost⟩ := split_flexible hone
  have runPre := extentsFrom_fixed_run width 0 pre
    fun w hw => ⟨hpre w hw, hfixed w (by simp [hw]) (hpre w hw)⟩
  have runPost := extentsFrom_fixed_run width (width - post.sum) post
    fun w hw => ⟨hpost w hw, hfixed w (by simp [hw]) (hpost w hw)⟩
  have sumPre : 0 ≤ pre.sum := List.sum_nonneg fun w hw => hfixed w (by simp [hw]) (hpre w hw)
  have sumPost : 0 ≤ post.sum :=
    List.sum_nonneg fun w hw => hfixed w (by simp [hw]) (hpost w hw)
  rw [fixedSum_split hpre hpost, extents_split hpre]
  simp only [zero_add, sub_add_cancel] at runPre runPost
  constructor
  · rintro ⟨-, hdisj, hcover⟩
    by_contra hlt
    rcases lt_trichotomy post.sum 0 with hneg | hzero | hpos
    · omega
    · -- nothing after the flexible widget: the point `W` lies before it
      obtain ⟨e, he, hx⟩ := (runPre.cover width).mpr ⟨hW, by omega⟩
      exact absurd ((hcover width).mp ⟨e, List.mem_append_left _ he, hx⟩).2 (lt_irrefl _)
    · by_cases hsmall : width < post.sum
      · -- the run after the flexible widget reaches left of `0`
        obtain ⟨e, he, hx⟩ := (runPost.cover (-1)).mpr ⟨by omega, by omega⟩
        have := ((hcover (-1)).mp ⟨e, by simp [he], hx⟩).1
        omega
      · -- the point `W - sum after` lies in both fixed runs
        obtain ⟨e, he, hx⟩ := (runPre.cover (width - post.sum)).mpr ⟨by omega, by omega⟩
        obtain ⟨f, hf, hy⟩ := (runPost.cover (width - post.sum)).mpr ⟨le_rfl, by omega⟩
        exact (List.pairwise_append.mp hdisj).2.2 e he f (List.mem_cons_of_mem _ hf) _ ⟨hx, hy⟩
  · intro hle
    have run : IsRun 0 (extentsFrom width 0 pre ++ (pre.sum, width - post.sum) ::
        extentsFrom width (width - post.sum) post) width :=
      runPre.append ⟨rfl, by omega, runPost⟩
    refine ⟨?_, run.pairwiseDisjoint, fun x => run.cover x⟩
    rw [← extents_split hpre]
    exact extentsFrom_contiguous width 0 _

/-- When the extents tile the panel, the hit test picks the one widget whose extent holds
the pointer, and none for a pointer outside `[0, W)`. -/
theorem widgetUnderMouse_of_tiles {width : Int} {widths : List Int}
    (h : TilesPanel width (extents width widths)) (x : Int) :
    (∀ i, widgetUnderMouse width x 0 widths = some i ↔
      ∃ e, (extents width widths)[i]? = some e ∧ InExtent x e) ∧
    (¬ (0 ≤ x ∧ x < width) → widgetUnderMouse width x 0 widths = none) := by
  rw [widgetUnderMouse_eq_firstIndex]
  refine ⟨firstIndex_eq_some_iff _ (h.2.1.imp fun hd => hd x), fun hx => ?_⟩
  exact (firstIndex_eq_none_iff _).mpr fun e he hin => hx ((h.2.2 x).mp ⟨e, he, hin⟩)

/-- With exactly one flexible widget, non-negative fixed widths and a panel width `W ≥ 0`,
the extents the draw gives the widgets are contiguous, disjoint and cover `[0, W)` exactly
when `W` is at least the sum of the fixed widths; and then the hit test of
`mouse_action` selects the widget whose extent holds the pointer, and none outside
`[0, W)`. -/
theorem panel_layout_tiles_iff (widths : List Int) (width : Int)
    (hone : widths.count (-1) = 1) (hfixed : ∀ w ∈ widths, w ≠ -1 → 0 ≤ w) (hW : 0 ≤ width) :
    (TilesPanel width (extents width widths) ↔ fixedSum widths ≤ width) ∧
    (fixedSum widths ≤ width → ∀ x,
      (∀ i, widgetUnderMouse width x 0 widths = some i ↔
        ∃ e, (extents width widths)[i]? = some e ∧ InExtent x e) ∧
      (¬ (0 ≤ x ∧ x < width) → widgetUnderMouse width x 0 widths = none)) :=
  ⟨extents_partition_iff hone hfixed hW,
    fun hle => widgetUnderMouse_of_tiles ((extents_partition_iff hone hfixed hW).mpr hle)⟩

/-- The shipped widget widths on a 1024-pixel display. -/
theorem panel_layout_tiles_iff_shipped :
    (TilesPanel 1024 (extents 1024 [140, -1, 28, 70, 80, 28]) ↔
      fixedSum [140, -1, 28, 70, 80, 28] ≤ 1024) ∧
    (fixedSum [140, -1, 28, 70, 80, 28] ≤ 1024 → ∀ x,
      (∀ i, widgetUnderMouse 1024 x 0 [140, -1, 28, 70, 80, 28] = some i ↔
        ∃ e, (extents 1024 [140, -1, 28, 70, 80, 28])[i]? = some e ∧ InExtent x e) ∧
      (¬ (0 ≤ x ∧ x < 1024) → widgetUnderMouse 1024 x 0 [140, -1, 28, 70, 80, 28] = none)) :=
  panel_layout_tiles_iff _ _ (by decide) (by decide) (by decide)

end ToaruPanel
