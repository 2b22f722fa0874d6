import ToaruPanel.Basic

/-!
# The desktop icon grid

`WallpaperWindow.draw` places the desktop icons in columns.  A cursor starts at
`(20, 50)`; an icon that would pass the bottom edge (`offset_y > height - icon.height`)
starts a new column at `offset_x + last_width`, where `last_width` is the widest icon of
the column just closed.  `WallpaperWindow.mouse_action` repeats the same loop to find the
icon under the pointer and stops at the first icon whose rectangle holds it.  Both loops
share the cursor step here (`GridCursor.wrap`, `GridCursor.advance`), and differ only in
what they do at the cursor.

`GridCursor.Covers` is the part of the surface already used: everything left of the
current column, and the current column above the cursor.  Each icon is placed outside
that region and inside the next one, and the region only grows, so with non-negative
sizes the icon rectangles are pairwise disjoint (`iconRectsFrom_pairwise_disjoint`) and the
hit test finds the one icon under the pointer (`iconUnderMouseFrom_eq_firstIndex`).

For icons of one size `w × h` the loop has a closed form: icon `i` lands at
`(20 + (i / p) * w, 50 + (i % p) * h)` with `p = max 1 ((height - 50) / h)` icons to a
column (`iconRectsFrom_uniform`).
-/

namespace ToaruPanel

/-- A rectangle `[x, x + width) × [y, y + height)`. -/
structure Rect where
  /-- Left edge. -/
  x : Int
  /-- Top edge. -/
  y : Int
  /-- Width. -/
  width : Int
  /-- Height. -/
  height : Int
deriving DecidableEq, Repr

/-- The point `(px, py)` lies in the rectangle. -/
def Rect.Contains (r : Rect) (px py : Int) : Prop :=
  r.x ≤ px ∧ px < r.x + r.width ∧ r.y ≤ py ∧ py < r.y + r.height

instance (r : Rect) (px py : Int) : Decidable (r.Contains px py) :=
  inferInstanceAs (Decidable (_ ∧ _))

/-- No point lies in both rectangles. -/
def Rect.Disjoint (r s : Rect) : Prop := ∀ px py, ¬ (r.Contains px py ∧ s.Contains px py)

/-- A desktop launcher, with the fields the wallpaper reads and writes. -/
structure WallpaperIcon where
  /-- The label under the icon. -/
  name : List Char
  /-- The shell command a click runs. -/
  data : List Char
  /-- Horizontal room the layout gives the icon (the class attribute is `100`). -/
  width : Int := 100
  /-- Vertical room the layout gives the icon (the class attribute is `80`). -/
  height : Int := 80
  /-- Left edge at the last draw. -/
  x : Int := 0
  /-- Top edge at the last draw. -/
  y : Int := 0
  /-- Whether the pointer is over the icon. -/
  hilighted : Bool := false
deriving DecidableEq, Repr

/-- The layout loop's state: `offset_x`, `offset_y` and `last_width`. -/
structure GridCursor where
  /-- Left edge of the current column. -/
  offsetX : Int
  /-- Top of the next icon. -/
  offsetY : Int
  /-- Width of the widest icon in the current column. -/
  lastWidth : Int
deriving DecidableEq, Repr

namespace GridCursor

/-- `offset_x = 20`, `offset_y = 50`, `last_width = 0`. -/
def start : GridCursor := ⟨20, 50, 0⟩

/-- A new column if an icon of height `h` would pass the bottom edge. -/
def newColumn (height : Int) (c : GridCursor) (h : Int) : GridCursor :=
  if c.offsetY > height - h then ⟨c.offsetX + c.lastWidth, 50, 0⟩ else c

/-- `if icon.width > last_width: last_width = icon.width`. -/
def widen (c : GridCursor) (w : Int) : GridCursor :=
  if w > c.lastWidth then { c with lastWidth := w } else c

/-- The loop body before the icon is used. -/
def wrap (height : Int) (c : GridCursor) (w h : Int) : GridCursor :=
  (c.newColumn height h).widen w

/-- `offset_y += icon.height`. -/
def advance (c : GridCursor) (h : Int) : GridCursor := { c with offsetY := c.offsetY + h }

/-- The used part of the surface: left of the column, or in it and above the cursor. -/
def Covers (c : GridCursor) (px py : Int) : Prop :=
  px < c.offsetX ∨ (px < c.offsetX + c.lastWidth ∧ py < c.offsetY)

end GridCursor

/-- The rectangles `WallpaperWindow.draw` places the icons in. -/
def iconRectsFrom (height : Int) : GridCursor → List WallpaperIcon → List Rect
  | _, [] => []
  | c, icon :: rest =>
    let c := c.wrap height icon.width icon.height
    ⟨c.offsetX, c.offsetY, icon.width, icon.height⟩ ::
      iconRectsFrom height (c.advance icon.height) rest

/-- The hit test of `WallpaperWindow.mouse_action`: the first icon whose rectangle holds the
pointer. -/
def iconUnderMouseFrom (height px py : Int) : GridCursor → List WallpaperIcon → Option Nat
  | _, [] => none
  | c, icon :: rest =>
    let c := c.wrap height icon.width icon.height
    if px ≥ c.offsetX ∧ px < c.offsetX + icon.width ∧ py ≥ c.offsetY ∧
        py < c.offsetY + icon.height then some 0
    else (iconUnderMouseFrom height px py (c.advance icon.height) rest).map (· + 1)

/-- The icon rectangles of a surface of height `height`. -/
def iconRects (height : Int) (icons : List WallpaperIcon) : List Rect :=
  iconRectsFrom height GridCursor.start icons

/-- The icon under the pointer on a surface of height `height`. -/
def iconUnderMouse (height px py : Int) (icons : List WallpaperIcon) : Option Nat :=
  iconUnderMouseFrom height px py GridCursor.start icons

/-! ## The used region only grows -/

namespace GridCursor

@[simp] theorem widen_offsetX (c : GridCursor) (w : Int) : (c.widen w).offsetX = c.offsetX := by
  unfold widen; split <;> rfl

@[simp] theorem widen_offsetY (c : GridCursor) (w : Int) : (c.widen w).offsetY = c.offsetY := by
  unfold widen; split <;> rfl

@[simp] theorem widen_lastWidth (c : GridCursor) (w : Int) :
    (c.widen w).lastWidth = max c.lastWidth w := by
  unfold widen; split_ifs <;> simp only [max_def] <;> split_ifs <;> omega

theorem newColumn_cases (height h : Int) (c : GridCursor) :
    (c.offsetY > height - h ∧ c.newColumn height h = ⟨c.offsetX + c.lastWidth, 50, 0⟩) ∨
      (c.offsetY ≤ height - h ∧ c.newColumn height h = c) := by
  unfold newColumn; split <;> [exact Or.inl ⟨‹_›, rfl⟩; exact Or.inr ⟨by omega, rfl⟩]

theorem newColumn_lastWidth_nonneg {height h : Int} {c : GridCursor} (hc : 0 ≤ c.lastWidth) :
    0 ≤ (c.newColumn height h).lastWidth := by
  rcases newColumn_cases height h c with ⟨-, e⟩ | ⟨-, e⟩ <;> simp [e, hc]

theorem wrap_lastWidth_nonneg (height w h : Int) {c : GridCursor} (hc : 0 ≤ c.lastWidth) :
    0 ≤ (c.wrap height w h).lastWidth := by
  simp only [wrap, widen_lastWidth]
  exact le_max_of_le_left (newColumn_lastWidth_nonneg hc)

theorem wrap_lastWidth_ge (height w h : Int) (c : GridCursor) : w ≤ (c.wrap height w h).lastWidth := by
  simp [wrap]

theorem wrap_covers (height w h : Int) {px py : Int} {c : GridCursor} (hc : 0 ≤ c.lastWidth)
    (hp : c.Covers px py) : (c.wrap height w h).Covers px py := by
  simp only [wrap, Covers, widen_offsetX, widen_offsetY, widen_lastWidth] at *
  have := le_max_left (c.newColumn height h).lastWidth w
  rcases newColumn_cases height h c with ⟨-, e⟩ | ⟨-, e⟩ <;> rw [e] at this ⊢
  · simp only at this ⊢; omega
  · omega

theorem advance_covers {h px py : Int} {c : GridCursor} (hh : 0 ≤ h) (hp : c.Covers px py) :
    (c.advance h).Covers px py := by
  unfold advance Covers at *; simp only at *; omega

/-- The icon placed at the cursor lies outside the used region... -/
theorem placed_not_covers {c : GridCursor} {w h px py : Int}
    (hr : (⟨c.offsetX, c.offsetY, w, h⟩ : Rect).Contains px py) : ¬ c.Covers px py := by
  unfold Rect.Contains Covers at *; simp only at *; omega

/-- ... and inside the region once the cursor moves past it. -/
theorem placed_covers_advance {c : GridCursor} {w h px py : Int} (hw : w ≤ c.lastWidth)
    (hr : (⟨c.offsetX, c.offsetY, w, h⟩ : Rect).Contains px py) : (c.advance h).Covers px py := by
  unfold Rect.Contains Covers advance at *; simp only at *; omega

end GridCursor

/-- Every icon placed from cursor `c` on lies outside the region `c` has used. -/
theorem iconRectsFrom_avoid (height : Int) : ∀ (c : GridCursor) (icons : List WallpaperIcon),
    0 ≤ c.lastWidth → (∀ icon ∈ icons, 0 ≤ icon.height) →
    ∀ r ∈ iconRectsFrom height c icons, ∀ px py, r.Contains px py → ¬ c.Covers px py
  | _, [], _, _, _, hr, _, _, _, _ => absurd hr (List.not_mem_nil _)
  | c, icon :: rest, hc, hsize, r, hr, px, py, hin, hcov => by
    have hwrap := c.wrap_covers height icon.width icon.height hc hcov
    rcases List.mem_cons.mp hr with rfl | hr
    · exact GridCursor.placed_not_covers hin hwrap
    · exact iconRectsFrom_avoid height ((c.wrap height icon.width icon.height).advance icon.height)
        rest (GridCursor.wrap_lastWidth_nonneg height icon.width icon.height hc)
        (fun i hi => hsize i (List.mem_cons_of_mem _ hi)) r hr px py hin
        (GridCursor.advance_covers (hsize icon (List.mem_cons_self _ _)) hwrap)

theorem iconRectsFrom_pairwise_disjoint (height : Int) : ∀ (c : GridCursor)
    (icons : List WallpaperIcon), 0 ≤ c.lastWidth → (∀ icon ∈ icons, 0 ≤ icon.height) →
    (iconRectsFrom height c icons).Pairwise Rect.Disjoint
  | _, [], _, _ => List.Pairwise.nil
  | c, icon :: rest, hc, hsize => by
    have hnn := GridCursor.wrap_lastWidth_nonneg height icon.width icon.height hc
    have hrest : ∀ i ∈ rest, 0 ≤ i.height := fun i hi => hsize i (List.mem_cons_of_mem _ hi)
    have hnext := iconRectsFrom_avoid height
      ((c.wrap height icon.width icon.height).advance icon.height) rest hnn hrest
    refine List.Pairwise.cons (fun s hs px py ⟨hin, hins⟩ => ?_)
      (iconRectsFrom_pairwise_disjoint height _ rest hnn hrest)
    exact hnext s hs px py hins
      (GridCursor.placed_covers_advance (GridCursor.wrap_lastWidth_ge _ _ _ _) hin)

theorem iconUnderMouseFrom_eq_firstIndex (height px py : Int) : ∀ (c : GridCursor)
    (icons : List WallpaperIcon),
    iconUnderMouseFrom height px py c icons =
      firstIndex (fun r : Rect => r.Contains px py) (iconRectsFrom height c icons)
  | _, [] => rfl
  | c, icon :: rest => by
    simp only [iconUnderMouseFrom, iconRectsFrom, firstIndex, Rect.Contains, ge_iff_le,
      iconUnderMouseFrom_eq_firstIndex height px py _ rest]

/-- The hit test names an icon of the list. -/
theorem iconUnderMouseFrom_lt (height px py : Int) : ∀ (c : GridCursor) (icons : List WallpaperIcon)
    {i : Nat}, iconUnderMouseFrom height px py c icons = some i → i < icons.length
  | _, [], _, h => by cases h
  | c, icon :: rest, i, h => by
    simp only [iconUnderMouseFrom] at h
    split at h
    · cases h; simp
    · obtain ⟨j, hj, rfl⟩ := Option.map_eq_some'.mp h
      simpa using iconUnderMouseFrom_lt height px py _ rest hj

/-- For every icon list with non-negative sizes and every surface height, the drawn icon
rectangles are pairwise disjoint, and the hit test of `mouse_action` selects exactly the
icon whose drawn rectangle holds the pointer, or none when no rectangle does. -/
theorem wallpaper_icons_disjoint_hit (icons : List WallpaperIcon) (height : Int)
    (hsize : ∀ icon ∈ icons, 0 ≤ icon.width ∧ 0 ≤ icon.height) :
    (iconRects height icons).Pairwise Rect.Disjoint ∧
    ∀ px py, (∀ i, iconUnderMouse height px py icons = some i ↔
        ∃ r, (iconRects height icons)[i]? = some r ∧ r.Contains px py) ∧
      (iconUnderMouse height px py icons = none ↔
        ∀ r ∈ iconRects height icons, ¬ r.Contains px py) := by
  have hdisj := iconRectsFrom_pairwise_disjoint height GridCursor.start icons
    (le_refl 0) fun i hi => (hsize i hi).2
  refine ⟨hdisj, fun px py => ?_⟩
  unfold iconUnderMouse iconRects
  rw [iconUnderMouseFrom_eq_firstIndex]
  exact ⟨firstIndex_eq_some_iff _ (hdisj.imp fun hd => hd px py) , firstIndex_eq_none_iff _⟩

/-- Five icons of the shipped size on a 300-pixel surface, over two columns. -/
theorem wallpaper_icons_disjoint_hit_shipped :
    (iconRects 300 (List.replicate 5 ⟨[], [], 100, 80, 0, 0, false⟩)).Pairwise Rect.Disjoint ∧
    ∀ px py, (∀ i, iconUnderMouse 300 px py (List.replicate 5 ⟨[], [], 100, 80, 0, 0, false⟩) = some i ↔
        ∃ r, (iconRects 300 (List.replicate 5 ⟨[], [], 100, 80, 0, 0, false⟩))[i]? = some r ∧
          r.Contains px py) ∧
      (iconUnderMouse 300 px py (List.replicate 5 ⟨[], [], 100, 80, 0, 0, false⟩) = none ↔
        ∀ r ∈ iconRects 300 (List.replicate 5 ⟨[], [], 100, 80, 0, 0, false⟩), ¬ r.Contains px py) :=
  wallpaper_icons_disjoint_hit _ 300 (by simp)

/-! ## Icons of one size -/

/-- Icons to a column when every icon is `h` high. -/
def iconsPerColumn (height h : Int) : Int := max 1 ((height - 50) / h)

/-- The cursor after `k` icons of one size `w × h`, `p` to a column. -/
def gridCursor (p w h : Int) : Nat → GridCursor
  | 0 => GridCursor.start
  | k + 1 => ⟨20 + (k / p) * w, 50 + (k % p + 1) * h, w⟩

/-- The icon after the `r + 1`-th of a column passes the bottom edge exactly when the column
is full. -/
theorem wraps_iff {height h r : Int} (hh : 0 < h) (hr : 0 ≤ r ∧ r < iconsPerColumn height h) :
    50 + (r + 1) * h > height - h ↔ r + 1 = iconsPerColumn height h := by
  have hlo := Int.ediv_mul_le (height - 50) hh.ne'
  have hhi := Int.lt_ediv_add_one_mul_self (height - 50) hh
  unfold iconsPerColumn at *
  rcases le_total ((height - 50) / h) 1 with hq | hq
  · rw [max_eq_left hq] at hr ⊢
    obtain rfl : r = 0 := by omega
    have := Int.mul_le_mul_of_nonneg_right (show (height - 50) / h + 1 ≤ 2 by omega) hh.le
    exact iff_of_true (by linarith) rfl
  · rw [max_eq_right hq] at hr ⊢
    constructor
    · intro hgt
      by_contra hne
      have hr2 : r + 2 ≤ (height - 50) / h := by omega
      have := Int.mul_le_mul_of_nonneg_right hr2 hh.le
      linarith
    · intro heq
      rw [← heq] at hhi
      linarith

theorem gridCursor_wrap {height w h : Int} (hw : 0 < w) (hh : 0 < h) (k : Nat) :
    (gridCursor (iconsPerColumn height h) w h k).wrap height w h =
      ⟨20 + (k / iconsPerColumn height h) * w, 50 + (k % iconsPerColumn height h) * h, w⟩ := by
  have hp : 0 < iconsPerColumn height h := lt_max_of_lt_left one_pos
  cases k with
  | zero =>
    simp only [gridCursor, GridCursor.start, GridCursor.wrap, GridCursor.widen, GridCursor.newColumn]
    split_ifs <;> simp_all
  | succ m =>
    set p := iconsPerColumn height h
    have hr : 0 ≤ (m : Int) % p ∧ (m : Int) % p < p :=
      ⟨Int.emod_nonneg _ hp.ne', Int.emod_lt_of_pos _ hp⟩
    have hdiv := Int.ediv_add_emod (m : Int) p
    have hww : ¬ w > w := lt_irrefl w
    by_cases hfull : (m : Int) % p + 1 = p
    · have hq : ((m + 1 : Nat) : Int) / p = (m : Int) / p + 1 ∧ ((m + 1 : Nat) : Int) % p = 0 :=
        (Int.ediv_emod_unique hp).mpr ⟨by push_cast; linear_combination hdiv - hfull, le_rfl, hp⟩
      have hc := (wraps_iff hh hr).mpr hfull
      have hw0 : w > 0 := hw
      simp only [gridCursor, GridCursor.wrap, GridCursor.widen, GridCursor.newColumn, hc, hw0,
        if_true, hq.1, hq.2, GridCursor.mk.injEq]
      exact ⟨by ring, by ring, trivial⟩
    · have hq : ((m + 1 : Nat) : Int) / p = (m : Int) / p ∧ ((m + 1 : Nat) : Int) % p = m % p + 1 :=
        (Int.ediv_emod_unique hp).mpr ⟨by push_cast; linear_combination hdiv, by omega, by omega⟩
      have hc := mt (wraps_iff hh hr).mp hfull
      simp only [gridCursor, GridCursor.wrap, GridCursor.widen, GridCursor.newColumn, hc, hww,
        if_false, hq.1, hq.2]

theorem gridCursor_advance (p w h : Int) (k : Nat) :
    (⟨20 + (k / p) * w, 50 + (k % p) * h, w⟩ : GridCursor).advance h = gridCursor p w h (k + 1) := by
  simp only [GridCursor.advance, gridCursor, GridCursor.mk.injEq]
  exact ⟨trivial, by ring, trivial⟩

theorem iconRectsFrom_uniform {height w h : Int} (hw : 0 < w) (hh : 0 < h) :
    ∀ (k : Nat) (icons : List WallpaperIcon), (∀ icon ∈ icons, icon.width = w ∧ icon.height = h) →
    ∀ j < icons.length, (iconRectsFrom height (gridCursor (iconsPerColumn height h) w h k) icons)[j]? =
      some ⟨20 + ((k + j : Nat) / iconsPerColumn height h) * w,
        50 + ((k + j : Nat) % iconsPerColumn height h) * h, w, h⟩
  | _, [], _, j, hj => absurd hj (Nat.not_lt_zero j)
  | k, icon :: rest, hsize, j, hj => by
    obtain ⟨hiw, hih⟩ := hsize icon (List.mem_cons_self _ _)
    simp only [iconRectsFrom, hiw, hih, gridCursor_wrap hw hh, gridCursor_advance]
    cases j with
    | zero => simp
    | succ j =>
      rw [List.getElem?_cons_succ, iconRectsFrom_uniform hw hh (k + 1) rest
        (fun i hi => hsize i (List.mem_cons_of_mem _ hi)) j (by simpa using hj)]
      simp only [Nat.add_right_comm k 1 j, Nat.add_assoc]

/-- Icons of one size `w × h` with `w, h > 0`, on a surface of any height: the `i`-th lands at
`(20 + (i / p) * w, 50 + (i % p) * h)`, `p = max 1 ((height - 50) / h)`. -/
theorem wallpaper_grid_closed_form (icons : List WallpaperIcon) (height w h : Int)
    (hw : 0 < w) (hh : 0 < h) (hsize : ∀ icon ∈ icons, icon.width = w ∧ icon.height = h) :
    ∀ i < icons.length, (iconRects height icons)[i]? =
      some ⟨20 + (i / iconsPerColumn height h) * w, 50 + (i % iconsPerColumn height h) * h, w, h⟩ := by
  intro i hi
  simpa using iconRectsFrom_uniform hw hh 0 icons hsize i hi

/-- Four icons of the shipped size on a 300-pixel surface: three to a column, so the fourth
starts the second column. -/
theorem wallpaper_grid_closed_form_shipped :
    (iconRects 300 (List.replicate 4 ⟨[], [], 100, 80, 0, 0, false⟩))[3]? =
      some ⟨20 + (((3 : Nat) : Int) / iconsPerColumn 300 80) * 100,
        50 + (((3 : Nat) : Int) % iconsPerColumn 300 80) * 80, 100, 80⟩ :=
  wallpaper_grid_closed_form (List.replicate 4 ⟨[], [], 100, 80, 0, 0, false⟩) 300 100 80
    (by decide) (by decide) (by simp) 3 (by simp)

end ToaruPanel
