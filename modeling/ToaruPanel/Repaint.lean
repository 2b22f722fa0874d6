import ToaruPanel.Wallpaper

/-!
# Clipped repaints of the wallpaper

`WallpaperWindow.draw(clips)` paints the background only inside the clip, the rectangles of
the keys of `clips` and of `self.animations`, and then paints the icons that are in `clips`,
bounce, or are shown during the cross-fade.  The rectangle of an icon's key is where the icon
was last drawn, `(icon.x, icon.y)`, which `WallpaperIcon.draw` sets; the window's own key
stands for the whole window.  So a clipped repaint leaves no icon half covered only if every
icon remembers its place in the layout and no icon outside the painted ones has a layout
rectangle meeting the clip.

*Placement.*  The first `draw()` of `__main__` paints every icon, so each remembers its place
(`IconsPlaced`).  The layout reads only the icons' sizes, which nothing changes
(`iconRectsFrom_congr`); a clipped draw moves only the icons it paints, to the places they
already hold; a resize is followed by a full draw.  So every event keeps the places
(`handle_keeps_layout`).

*Overlap.*  With icons at their places, the clip rectangle of an icon's key is that icon's
layout rectangle, and layout rectangles are pairwise disjoint (`iconRectsFrom_pairwise_disjoint`),
so an icon whose rectangle meets it is the icon itself, which the draw paints.  The window's
key is in the clip only as a running cross-fade, during which every icon is painted
(`clip_meets_drawn`).  `mouse_action` passes the keys of icons only, `animate` the animated
keys, and the other draws paint the whole window (`handle_redraws`).
-/

namespace ToaruPanel

/-- `WallpaperIcon(icon, name, action, data)`: at `(0, 0)`, of the class's size, not
highlighted. -/
def WallpaperIcon.init (name data : List Char) : WallpaperIcon := { name := name, data := data }

namespace WallpaperIcon

/-- Where the icon was last drawn, with its size: the rectangle a clip on the icon adds. -/
def rect (icon : WallpaperIcon) : Rect := ⟨icon.x, icon.y, icon.width, icon.height⟩

/-- The room the layout gives the icon. -/
def size (icon : WallpaperIcon) : Int × Int := (icon.width, icon.height)

@[simp] theorem size_focusEnter (icon : WallpaperIcon) : icon.focusEnter.size = icon.size := rfl

@[simp] theorem size_focusLeave (icon : WallpaperIcon) : icon.focusLeave.size = icon.size := rfl

@[simp] theorem rect_focusEnter (icon : WallpaperIcon) : icon.focusEnter.rect = icon.rect := rfl

@[simp] theorem rect_focusLeave (icon : WallpaperIcon) : icon.focusLeave.rect = icon.rect := rfl

end WallpaperIcon

/-- The size of a rectangle. -/
def Rect.size (r : Rect) : Int × Int := (r.width, r.height)

theorem Rect.Disjoint.symm {r s : Rect} (h : r.Disjoint s) : s.Disjoint r :=
  fun px py hp => h px py ⟨hp.2, hp.1⟩

/-- In a list of pairwise disjoint rectangles, two that meet sit at one index. -/
theorem eq_of_not_disjoint {l : List Rect} (hl : l.Pairwise Rect.Disjoint) {i j : Nat}
    {a b : Rect} (ha : l[i]? = some a) (hb : l[j]? = some b) (hab : ¬ a.Disjoint b) : i = j := by
  obtain ⟨hi, rfl⟩ := List.getElem?_eq_some_iff.mp ha
  obtain ⟨hj, rfl⟩ := List.getElem?_eq_some_iff.mp hb
  by_contra hne
  rcases Nat.lt_or_gt_of_ne hne with h | h
  · exact hab (List.pairwise_iff_getElem.mp hl i j hi hj h)
  · exact hab (List.pairwise_iff_getElem.mp hl j i hj hi h).symm

/-! ## The layout reads only sizes -/

theorem iconRectsFrom_congr (height : Int) : ∀ (c : GridCursor) {icons icons' : List WallpaperIcon},
    icons.map WallpaperIcon.size = icons'.map WallpaperIcon.size →
      iconRectsFrom height c icons = iconRectsFrom height c icons'
  | _, [], [], _ => rfl
  | c, icon :: icons, icon' :: icons', h => by
    simp only [List.map_cons, List.cons.injEq, WallpaperIcon.size, Prod.mk.injEq] at h
    obtain ⟨⟨hw, hh⟩, hs⟩ := h
    simp only [iconRectsFrom, hw, hh, iconRectsFrom_congr height _ hs]
  | _, [], _ :: _, h => by simp at h
  | _, _ :: _, [], h => by simp at h

/-- Each layout rectangle has its icon's size. -/
theorem iconRectsFrom_size (height : Int) : ∀ (c : GridCursor) (icons : List WallpaperIcon),
    (iconRectsFrom height c icons).map Rect.size = icons.map WallpaperIcon.size
  | _, [] => rfl
  | c, icon :: icons => by
    simp [iconRectsFrom, Rect.size, WallpaperIcon.size,
      iconRectsFrom_size height ((c.wrap height icon.width icon.height).advance icon.height) icons]

theorem iconRects_congr (height : Int) {icons icons' : List WallpaperIcon}
    (h : icons.map WallpaperIcon.size = icons'.map WallpaperIcon.size) :
    iconRects height icons = iconRects height icons' :=
  iconRectsFrom_congr height GridCursor.start h

theorem length_iconRects (height : Int) (icons : List WallpaperIcon) :
    (iconRects height icons).length = icons.length := by
  simpa using congrArg List.length (iconRectsFrom_size height GridCursor.start icons)

/-- Placing icons at rectangles of their sizes, when the icons not drawn already sit at theirs,
leaves every icon at its rectangle. -/
theorem placeIcons_rect (draws : Nat → Bool) : ∀ (n : Nat) (icons : List WallpaperIcon)
    (rects : List Rect), rects.map Rect.size = icons.map WallpaperIcon.size →
    (∀ i icon r, icons[i]? = some icon → rects[i]? = some r → draws (n + i) = false →
      icon.rect = r) →
    (WallpaperWindow.placeIcons draws n icons rects).map WallpaperIcon.rect = rects
  | _, [], [], _, _ => rfl
  | n, icon :: icons, r :: rects, hs, hkept => by
    simp only [List.map_cons, List.cons.injEq, Rect.size, WallpaperIcon.size, Prod.mk.injEq] at hs
    simp only [WallpaperWindow.placeIcons, List.map_cons, List.cons.injEq]
    refine ⟨?_, placeIcons_rect draws (n + 1) icons rects hs.2 fun i ic r' hi hr hd =>
      hkept (i + 1) ic r' (by rwa [List.getElem?_cons_succ]) (by rwa [List.getElem?_cons_succ])
        (by rwa [Nat.add_right_comm] at hd)⟩
    split
    · simp only [WallpaperIcon.rect, ← hs.1.1, ← hs.1.2]
    · next hd => exact hkept 0 icon r List.getElem?_cons_zero List.getElem?_cons_zero (by simpa using hd)
  | _, [], _ :: _, hs, _ => by simp at hs
  | _, _ :: _, [], hs, _ => by simp at hs

/-- Focus callbacks change no icon's size or place. -/
theorem map_foldl_focus {β : Type} (g : WallpaperIcon → β)
    (hg : ∀ icon, g icon.focusEnter = g icon ∧ g icon.focusLeave = g icon) :
    ∀ (calls : List FocusCall) (icons : List WallpaperIcon),
      (calls.foldl (FocusCall.apply WallpaperIcon.focusEnter WallpaperIcon.focusLeave) icons).map g =
        icons.map g
  | [], _ => rfl
  | c :: calls, icons => by
    rw [List.foldl_cons, map_foldl_focus g hg calls]
    apply List.ext_getElem?
    intro j
    cases c <;> simp only [FocusCall.apply, List.getElem?_map, List.getElem?_modify] <;>
      cases icons[j]? <;> simp only [Option.map_none', Option.map_some', Functor.map] <;>
      split <;> simp [hg]

/-! ## Icons at their places -/

namespace WallpaperWindow

/-- Every icon remembers the rectangle the layout gives it. -/
def IconsPlaced (w : WallpaperWindow) : Prop :=
  w.icons.map WallpaperIcon.rect = iconRects w.height w.icons

/-- No icon has a negative size. -/
def SizesNonneg (w : WallpaperWindow) : Prop :=
  ∀ s ∈ w.icons.map WallpaperIcon.size, 0 ≤ s.1 ∧ 0 ≤ s.2

/-- A frame paints every icon whose layout rectangle in `w` meets its clip. -/
def RedrawsOverlapped (w : WallpaperWindow) (f : Frame) : Prop :=
  ∀ rs, f.clip = some rs → ∀ j r, (iconRects w.height w.icons)[j]? = some r →
    (∃ c ∈ rs, ¬ r.Disjoint c) → j ∈ f.icons

theorem drawIcons_size (clips : List AnimationKey) (w : WallpaperWindow) :
    (w.drawIcons clips).map WallpaperIcon.size = w.icons.map WallpaperIcon.size :=
  List.ext_getElem? fun j => by
    simpa only [List.getElem?_map] using
      placeIcons_map WallpaperIcon.size (fun _ _ _ => rfl) _ _ _ _ j

/-- A full draw, or a clipped one from icons at their places, leaves every icon at its place. -/
theorem drawIcons_rect {clips : List AnimationKey} {w : WallpaperWindow}
    (h : clips = [] ∨ w.IconsPlaced) :
    (w.drawIcons clips).map WallpaperIcon.rect = iconRects w.height w.icons := by
  refine placeIcons_rect _ 0 w.icons _ (iconRectsFrom_size _ _ _) fun i icon r hi hr hd => ?_
  rcases h with rfl | h
  · cases hd
  · simpa [IconsPlaced, hi, hr] using congrArg (·[i]?) h

theorem draw_iconRects {clips : List AnimationKey} {now : ℚ} {w w' : WallpaperWindow} {f : Frame}
    (hd : w.draw clips now = .ok (w', f)) :
    w'.icons.map WallpaperIcon.size = w.icons.map WallpaperIcon.size ∧
      iconRects w'.height w'.icons = iconRects w.height w.icons := by
  obtain ⟨-, hw', -⟩ := draw_spec hd
  rw [hw']
  exact ⟨drawIcons_size clips w, iconRects_congr _ (drawIcons_size clips w)⟩

theorem iconsPlaced_draw {clips : List AnimationKey} {now : ℚ} {w w' : WallpaperWindow}
    {f : Frame} (hd : w.draw clips now = .ok (w', f)) (h : clips = [] ∨ w.IconsPlaced) :
    w'.IconsPlaced := by
  unfold IconsPlaced
  rw [(draw_iconRects hd).2]
  obtain ⟨-, hw', -⟩ := draw_spec hd
  rw [hw']
  exact drawIcons_rect h

theorem applyFocus_size (calls : List FocusCall) (focused : Option Nat) (w : WallpaperWindow) :
    (w.applyFocus calls focused).icons.map WallpaperIcon.size = w.icons.map WallpaperIcon.size :=
  map_foldl_focus WallpaperIcon.size (fun _ => ⟨rfl, rfl⟩) calls w.icons

theorem iconsPlaced_applyFocus {w : WallpaperWindow} (h : w.IconsPlaced) (calls : List FocusCall)
    (focused : Option Nat) : (w.applyFocus calls focused).IconsPlaced := by
  unfold IconsPlaced
  rw [iconRects_congr _ (applyFocus_size calls focused w), applyFocus_height]
  exact (map_foldl_focus WallpaperIcon.rect (fun _ => ⟨rfl, rfl⟩) calls w.icons).trans h

/-- Every event keeps the icons' sizes and, from icons at their places, their places. -/
theorem handle_keeps_layout {e : WallpaperEvent} {w w' : WallpaperWindow} {frames : List Frame}
    {effects : List Effect} (h : w.handle e = .ok (w', frames, effects)) (hp : w.IconsPlaced) :
    w'.icons.map WallpaperIcon.size = w.icons.map WallpaperIcon.size ∧ w'.IconsPlaced := by
  rcases handle_cases h with ⟨now, f, -, hd, -⟩ | ⟨width, height, now, f, -, hd, -⟩ |
    ⟨image, now, -, rfl, -⟩ | ⟨msg, now, -, hm⟩ | ⟨tick, drawNow, -, -, rfl, -⟩ |
    ⟨tick, drawNow, f, -, ha, -⟩
  · exact ⟨(draw_iconRects hd).1, iconsPlaced_draw hd (Or.inl rfl)⟩
  · exact ⟨(draw_iconRects hd).1, iconsPlaced_draw hd (Or.inl rfl)⟩
  · exact ⟨rfl, hp⟩
  · rcases mouseAction_cases hm with ⟨under, clips, f, -, hd, -, -⟩ | ⟨i, -, rfl, -⟩ | ⟨rfl, -⟩
    · exact ⟨(draw_iconRects hd).1.trans (applyFocus_size _ _ w),
        iconsPlaced_draw hd (Or.inr (iconsPlaced_applyFocus hp _ _))⟩
    · exact ⟨rfl, hp⟩
    · exact ⟨rfl, hp⟩
  · exact ⟨rfl, hp⟩
  · obtain ⟨w₂, hd, rfl⟩ := animate_spec ha
    exact ⟨(draw_iconRects hd).1, (iconsPlaced_draw hd (Or.inr hp) : w₂.IconsPlaced)⟩

/-! ## What a clipped draw paints -/

theorem findIn_isSome_of_mem {key : AnimationKey} : ∀ {l : List (AnimationKey × ℚ)},
    key ∈ l.map Prod.fst → (findIn key l).isSome
  | [], h => absurd h (List.not_mem_nil _)
  | (k, s) :: rest, h => by
    unfold findIn
    split
    · rfl
    · next hk => exact findIn_isSome_of_mem ((List.mem_cons.mp h).resolve_left (Ne.symm hk))

/-- Every key of the table has a running animation. -/
theorem AnimationTable.isSome_find_of_mem {t : AnimationTable} {key : AnimationKey}
    (h : key ∈ t.keys) : (t.find key).isSome :=
  findIn_isSome_of_mem h

theorem mem_drawnIcons {clips : List AnimationKey} {w : WallpaperWindow} {j : Nat} :
    j ∈ w.drawnIcons clips ↔ j < w.icons.length ∧ drawsIcon clips w.animations j = true := by
  simp [drawnIcons]

/-- With the icons at their places, an icon whose layout rectangle meets the clip of
`draw(clips)` is painted, when the window's key is in `clips` only while the cross-fade runs. -/
theorem clip_meets_drawn {clips : List AnimationKey} {w : WallpaperWindow} (hp : w.IconsPlaced)
    (hs : w.SizesNonneg) (hk : ∀ k ∈ clips, k = .wallpaper → k ∈ w.animations.keys)
    {rs : List Rect} (hrs : w.clipFor clips = some rs) {j : Nat} {r : Rect}
    (hr : (iconRects w.height w.icons)[j]? = some r) (hmeet : ∃ c ∈ rs, ¬ r.Disjoint c) :
    j ∈ w.drawnIcons clips := by
  have hj : j < w.icons.length := by
    rw [← length_iconRects w.height]; exact (List.getElem?_eq_some_iff.mp hr).1
  obtain ⟨c, hc, hrc⟩ := hmeet
  unfold clipFor at hrs
  split at hrs
  · cases hrs
  · cases hrs
    obtain ⟨k, hkmem, hkc⟩ := List.mem_filterMap.mp hc
    -- the key is animated or one of `clips`; either way the draw tests it
    have hdraws : ∀ k', k' ∈ clips ++ w.animations.keys → (k' = .wallpaper ∨ k' = .icon j) →
        drawsIcon clips w.animations j = true := by
      rintro k' hk' (rfl | rfl) <;> rcases List.mem_append.mp hk' with h | h
      · simp [drawsIcon, AnimationTable.isSome_find_of_mem (hk _ h rfl)]
      · simp [drawsIcon, AnimationTable.isSome_find_of_mem h]
      · simp [drawsIcon, h]
      · simp [drawsIcon, AnimationTable.isSome_find_of_mem h]
    refine mem_drawnIcons.mpr ⟨hj, hdraws k hkmem ?_⟩
    cases k with
    | wallpaper => exact .inl rfl
    | icon i =>
      -- the clip of an icon's key is its layout rectangle, which meets only itself
      have hci : (iconRects w.height w.icons)[i]? = some c := by
        rw [← hp, List.getElem?_map]; exact hkc
      have hdisj := iconRectsFrom_pairwise_disjoint w.height GridCursor.start w.icons le_rfl
        fun icon hi => (hs _ (List.mem_map_of_mem _ hi)).2
      exact .inr (by rw [eq_of_not_disjoint hdisj hci hr fun h => hrc h.symm])

theorem draw_redraws {clips : List AnimationKey} {now : ℚ} {w w' : WallpaperWindow} {f : Frame}
    (hd : w.draw clips now = .ok (w', f)) (hp : w.IconsPlaced) (hs : w.SizesNonneg)
    (hk : ∀ k ∈ clips, k = .wallpaper → k ∈ w.animations.keys) : RedrawsOverlapped w' f := by
  obtain ⟨rfl, -, -⟩ := draw_spec hd
  intro rs hrs j r hr hmeet
  rw [(draw_iconRects hd).2] at hr
  exact clip_meets_drawn hp hs hk hrs hr hmeet

theorem draw_nil_redraws {now : ℚ} {w w' : WallpaperWindow} {f : Frame}
    (hd : w.draw [] now = .ok (w', f)) : RedrawsOverlapped w' f := by
  obtain ⟨rfl, -, -⟩ := draw_spec hd
  intro rs hrs
  cases hrs

/-- Every frame an event paints from icons at their places redraws the icons its clip meets:
`mouse_action` clips to icons only, `animate` to the animated keys, and the other draws paint
the whole window. -/
theorem handle_redraws {e : WallpaperEvent} {w w' : WallpaperWindow} {frames : List Frame}
    {effects : List Effect} (h : w.handle e = .ok (w', frames, effects)) (hp : w.IconsPlaced)
    (hs : w.SizesNonneg) : ∀ f ∈ frames, RedrawsOverlapped w' f := by
  rcases handle_cases h with ⟨now, f, -, hd, rfl⟩ | ⟨width, height, now, f, -, hd, rfl⟩ |
    ⟨image, now, -, -, rfl⟩ | ⟨msg, now, -, hm⟩ | ⟨tick, drawNow, -, -, -, rfl⟩ |
    ⟨tick, drawNow, f, -, ha, rfl, -⟩
  · simpa using draw_nil_redraws hd
  · simpa using draw_nil_redraws hd
  · simp
  · rcases mouseAction_cases hm with ⟨under, clips, f, -, hd, rfl, hk, -⟩ | ⟨i, -, -, rfl⟩ | ⟨-, rfl⟩
    · have hs' : (w.applyFocus (switchCalls w.focusedIcon under) under).SizesNonneg := by
        rw [SizesNonneg, applyFocus_size]; exact hs
      simpa using draw_redraws hd (iconsPlaced_applyFocus hp _ _) hs'
        fun k hk' hkw => absurd hkw (hk k hk')
    · simp
    · simp
  · simp
  · obtain ⟨w₂, hd, rfl⟩ := animate_spec ha
    simpa using (draw_redraws hd hp hs fun k hk _ => hk : RedrawsOverlapped w₂ f)

/-- A draw with clips records them. -/
theorem draw_clip {clips : List AnimationKey} {now : ℚ} {w w' : WallpaperWindow} {f : Frame}
    (h : w.draw clips now = .ok (w', f)) (hc : clips ≠ []) : f.clip ≠ none := by
  rw [(draw_spec h).1]
  simp [clipFor, hc]

/-- Every frame a mouse event or a timer tick paints is clipped: `mouse_action` draws the
icons it moves the focus between, `animate` the animated keys. -/
theorem handle_clip {e : WallpaperEvent} {w w' : WallpaperWindow} {frames : List Frame}
    {effects : List Effect} (h : w.handle e = .ok (w', frames, effects))
    (he : (∃ msg now, e = .mouse msg now) ∨ ∃ tick drawNow, e = .timerTick tick drawNow) :
    ∀ f ∈ frames, f.clip ≠ none := by
  rcases handle_cases h with ⟨now, f, rfl, -, -⟩ | ⟨width, height, now, f, rfl, -, -⟩ |
    ⟨image, now, -, -, rfl⟩ | ⟨msg, now, -, hm⟩ | ⟨tick, drawNow, -, -, -, rfl⟩ |
    ⟨tick, drawNow, f, -, ha, rfl, hne⟩
  · simp at he
  · simp at he
  · simp
  · rcases mouseAction_cases hm with ⟨under, clips, f, -, hd, rfl, -, hc⟩ | ⟨i, -, -, rfl⟩ | ⟨-, rfl⟩
    · simpa using draw_clip hd hc
    · simp
    · simp
  · simp
  · obtain ⟨w₂, hd, -⟩ := animate_spec ha
    simpa using draw_clip hd (by simpa [AnimationTable.keys] using hne)

/-! ## The wallpaper of the main loop -/

/-- The wallpaper of `__main__`: `WallpaperWindow()` over the icons of the `.desktop` file,
named by their label and command, then `wallpaper.draw()`, then any run of events. -/
inductive Running : WallpaperWindow → Prop
  | start (wid : Nat) (width height : Int) (background : Nat)
      (entries : List (List Char × List Char)) (now : ℚ) {w : WallpaperWindow} {f : Frame} :
      (init wid width height background (entries.map fun e => WallpaperIcon.init e.1 e.2)).draw [] now =
        .ok (w, f) → Running w
  | step {w w' : WallpaperWindow} {e : WallpaperEvent} {frames : List Frame}
      {effects : List Effect} : Running w → w.handle e = .ok (w', frames, effects) → Running w'

theorem Running.reachable {w : WallpaperWindow} (hw : w.Running) : w.Reachable := by
  induction hw with
  | @start wid width height background entries now w f hd =>
    exact .step (.init wid width height background (entries.map fun e => WallpaperIcon.init e.1 e.2)
        (by simp only [List.mem_map]; rintro _ ⟨e, -, rfl⟩; rfl))
      (show handle (.draw now) _ = .ok (w, [f], []) by rw [handle, hd]; rfl)
  | step _ hstep ih => exact .step ih hstep

theorem Running.layout {w : WallpaperWindow} (hw : w.Running) : w.IconsPlaced ∧ w.SizesNonneg := by
  induction hw with
  | start wid width height background entries now hd =>
    refine ⟨iconsPlaced_draw hd (Or.inl rfl), ?_⟩
    rw [SizesNonneg, (draw_iconRects hd).1]
    simp only [init, List.map_map, List.mem_map]
    rintro _ ⟨e, -, rfl⟩
    simp [WallpaperIcon.size, WallpaperIcon.init]
  | step _ hstep ih =>
    obtain ⟨hsize, hp⟩ := handle_keeps_layout hstep ih.1
    exact ⟨hp, by rw [SizesNonneg, hsize]; exact ih.2⟩

/-- From the first draw on, every icon remembers the place the layout gives it; every frame
a mouse event or a timer tick paints is clipped, as `mouse_action` and `animate` draw; and
every frame an event paints with a clip paints each icon whose layout rectangle meets one of
the clip rectangles: the icon is in `clips`, bounces, or the cross-fade runs.  So a clipped
repaint never paints background over an icon it does not redraw. -/
theorem clipped_repaint_redraws_overlapped_icons {w : WallpaperWindow} (hw : w.Running) :
    w.icons.map WallpaperIcon.rect = iconRects w.height w.icons ∧
    (∀ (e : WallpaperEvent) (w' : WallpaperWindow) (frames : List Frame) (effects : List Effect),
      w.handle e = .ok (w', frames, effects) →
      ((∃ msg now, e = .mouse msg now) ∨ ∃ tick drawNow, e = .timerTick tick drawNow) →
      ∀ f ∈ frames, f.clip ≠ none) ∧
    ∀ (e : WallpaperEvent) (w' : WallpaperWindow) (frames : List Frame) (effects : List Effect),
      w.handle e = .ok (w', frames, effects) → ∀ f ∈ frames, ∀ rs, f.clip = some rs →
        ∀ j r, (iconRects w'.height w'.icons)[j]? = some r → (∃ c ∈ rs, ¬ r.Disjoint c) →
          j ∈ f.icons :=
  ⟨hw.layout.1, fun _ _ _ _ h => handle_clip h,
    fun _ _ _ _ h => handle_redraws h hw.layout.1 hw.layout.2⟩

/-- The wallpaper with one launcher after its first draw: the icon sits at `(20, 50)`. -/
def oneIconStart : WallpaperWindow :=
  { init 1 1024 768 0 [WallpaperIcon.init "Terminal".toList "terminal".toList] with
    icons := [{ WallpaperIcon.init "Terminal".toList "terminal".toList with x := 20, y := 50 }] }

theorem clipped_repaint_redraws_overlapped_icons_oneIcon :
    oneIconStart.Running ∧
    (oneIconStart.icons.map WallpaperIcon.rect = iconRects oneIconStart.height oneIconStart.icons ∧
    (∀ (e : WallpaperEvent) (w' : WallpaperWindow) (frames : List Frame) (effects : List Effect),
      oneIconStart.handle e = .ok (w', frames, effects) →
      ((∃ msg now, e = .mouse msg now) ∨ ∃ tick drawNow, e = .timerTick tick drawNow) →
      ∀ f ∈ frames, f.clip ≠ none) ∧
    ∀ (e : WallpaperEvent) (w' : WallpaperWindow) (frames : List Frame) (effects : List Effect),
      oneIconStart.handle e = .ok (w', frames, effects) → ∀ f ∈ frames, ∀ rs, f.clip = some rs →
        ∀ j r, (iconRects w'.height w'.icons)[j]? = some r → (∃ c ∈ rs, ¬ r.Disjoint c) →
          j ∈ f.icons) :=
  have hd : (init 1 1024 768 0 ([("Terminal".toList, "terminal".toList)].map fun e =>
      WallpaperIcon.init e.1 e.2)).draw [] 0 = .ok (oneIconStart, ⟨none, 0, [0]⟩) := rfl
  have hw : oneIconStart.Running := .start 1 1024 768 0 _ 0 hd
  ⟨hw, clipped_repaint_redraws_overlapped_icons hw⟩

end WallpaperWindow

end ToaruPanel
