import ToaruPanel.Grid
import ToaruPanel.Focus

/-!
# The wallpaper window

`WallpaperWindow` paints the background image and the desktop icons, tracks the icon under
the pointer the way the panel tracks its widgets, and runs two kinds of animation, kept in
`self.animations`: a dictionary from the window itself (the cross-fade to a reloaded
wallpaper) or an icon (the bounce after a launch) to the clock reading the animation started
at.

* `animate_new` loads the new wallpaper and starts (or restarts) the cross-fade.
* A click on the focused icon runs its action, which starts (or restarts) its bounce.
* `draw(clips)` paints, clipped to the rectangles of `clips` and of every animated key when
  `clips` is non-empty.  When the cross-fade has run for at least a second at the draw's
  clock reading, the new wallpaper replaces the old one and the cross-fade ends.
* `animate`, run on a timer tick while an animation is active, draws with every animated
  key as a clip, then ends every bounce older than half a second at the tick's reading.

Clock readings are exact rationals; the model takes each `time.time()` call as an input.
The animation table is `AnimationTable`, whose keys are distinct, as a dictionary's are.
A draw returns its `Frame`: the clip, its clock reading and the icons it paints.
`draw_spec`, `mouseAction_cases` and `handle_cases` say once what a draw, a mouse event and
any event can do; the lifecycle (`AnimationStep`) and the invariants are derived from them.
-/

namespace ToaruPanel

/-- A key of `WallpaperWindow.animations`: the window itself, for the cross-fade, or the
desktop icon at an index, for its bounce. -/
inductive AnimationKey where
  /-- The window (`self`). -/
  | wallpaper
  /-- The icon at this index of `self.icons`. -/
  | icon (i : Nat)
deriving DecidableEq, Repr

/-! ## The animation dictionary -/

/-- `animations.get(key)` over a list of entries. -/
def findIn (key : AnimationKey) : List (AnimationKey × ℚ) → Option ℚ
  | [] => none
  | (k, s) :: rest => if k = key then some s else findIn key rest

/-- `animations[key] = t` over a list of entries: replace in place, or add the key last. -/
def setIn (key : AnimationKey) (t : ℚ) : List (AnimationKey × ℚ) → List (AnimationKey × ℚ)
  | [] => [(key, t)]
  | (k, s) :: rest => if k = key then (key, t) :: rest else (k, s) :: setIn key t rest

theorem mem_keys_setIn (key x : AnimationKey) (t : ℚ) : ∀ l : List (AnimationKey × ℚ),
    x ∈ (setIn key t l).map Prod.fst ↔ x = key ∨ x ∈ l.map Prod.fst
  | [] => by simp [setIn]
  | (k, s) :: rest => by
    unfold setIn
    split
    · next hk => subst hk; simp only [List.map_cons, List.mem_cons, or_self_left]
    · simp only [List.map_cons, List.mem_cons, mem_keys_setIn key x t rest]; exact or_left_comm

theorem nodup_setIn (key : AnimationKey) (t : ℚ) : ∀ {l : List (AnimationKey × ℚ)},
    (l.map Prod.fst).Nodup → ((setIn key t l).map Prod.fst).Nodup
  | [], _ => by simp [setIn]
  | (k, s) :: rest, h => by
    rw [List.map_cons, List.nodup_cons] at h
    unfold setIn
    split
    · next hk => subst hk; exact List.nodup_cons.mpr h
    · next hk =>
      rw [List.map_cons, List.nodup_cons, mem_keys_setIn]
      exact ⟨fun hm => hm.elim hk h.1, nodup_setIn key t h.2⟩

theorem findIn_eq_none {key : AnimationKey} : ∀ {l : List (AnimationKey × ℚ)},
    key ∉ l.map Prod.fst → findIn key l = none
  | [], _ => rfl
  | (k, s) :: rest, h => by
    simp only [List.map_cons, List.mem_cons, not_or] at h
    simp [findIn, Ne.symm h.1, findIn_eq_none h.2]

theorem findIn_setIn_ne {key key' : AnimationKey} (t : ℚ) (h : key ≠ key') :
    ∀ l, findIn key' (setIn key t l) = findIn key' l
  | [] => by simp [setIn, findIn, h]
  | (k, s) :: rest => by
    unfold setIn
    split
    · next hk => subst hk; simp [findIn, h]
    · simp [findIn, findIn_setIn_ne t h rest]

/-- With distinct keys, a filter keeps or drops the one entry of a key. -/
theorem findIn_filter (p : AnimationKey × ℚ → Bool) (key : AnimationKey) :
    ∀ {l : List (AnimationKey × ℚ)}, (l.map Prod.fst).Nodup →
      findIn key (l.filter p) = (findIn key l).filter fun s => p (key, s)
  | [], _ => rfl
  | (k, s) :: rest, h => by
    rw [List.map_cons, List.nodup_cons] at h
    by_cases hk : k = key
    · subst hk
      have hnone : findIn k rest = none := findIn_eq_none h.1
      cases hp : p (k, s) <;> simp [List.filter_cons, hp, findIn, findIn_filter p k h.2, hnone, Option.filter]
    · cases hp : p (k, s) <;> simp [List.filter_cons, hp, findIn, hk, findIn_filter p key h.2]

/-- `self.animations`: start times by key, each key at most once, in insertion order. -/
structure AnimationTable where
  /-- The entries, oldest key first. -/
  entries : List (AnimationKey × ℚ)
  /-- A dictionary holds each key once. -/
  nodup : (entries.map Prod.fst).Nodup

namespace AnimationTable

/-- `{}`. -/
def empty : AnimationTable := ⟨[], List.nodup_nil⟩

/-- The keys, as iterating the dictionary gives them. -/
def keys (t : AnimationTable) : List AnimationKey := t.entries.map Prod.fst

/-- The start time of the key's animation, if it runs. -/
def find (t : AnimationTable) (key : AnimationKey) : Option ℚ := findIn key t.entries

/-- `animations[key] = now`. -/
def set (t : AnimationTable) (key : AnimationKey) (now : ℚ) : AnimationTable :=
  ⟨setIn key now t.entries, nodup_setIn key now t.nodup⟩

/-- The entries that satisfy `p`, as deleting the others does. -/
def filter (t : AnimationTable) (p : AnimationKey × ℚ → Bool) : AnimationTable :=
  ⟨t.entries.filter p, t.nodup.sublist ((List.filter_sublist _).map _)⟩

@[simp] theorem find_empty (key : AnimationKey) : empty.find key = none := rfl

theorem find_set_ne (t : AnimationTable) {key key' : AnimationKey} (now : ℚ) (h : key ≠ key') :
    (t.set key now).find key' = t.find key' := findIn_setIn_ne now h t.entries

@[simp] theorem find_filter (t : AnimationTable) (p : AnimationKey × ℚ → Bool) (key : AnimationKey) :
    (t.filter p).find key = (t.find key).filter fun s => p (key, s) :=
  findIn_filter p key t.nodup

end AnimationTable

/-! ## The window -/

/-- What one `draw` paints: the clip, `none` for the whole window, the clock reading the draw
takes for the cross-fade, and the icons it paints over the background. -/
structure Frame where
  /-- The clip rectangles, when `clips` was non-empty. -/
  clip : Option (List Rect)
  /-- `time.time()` in the cross-fade branch. -/
  now : ℚ
  /-- The icons `icon.draw` is called on, by index. -/
  icons : List Nat
deriving DecidableEq, Repr

/-- The frame paints every point of a `width` by `height` window. -/
def Frame.Covers (f : Frame) (width height : Int) : Prop :=
  ∀ px py, 0 ≤ px → px < width → 0 ≤ py → py < height →
    ∀ rs, f.clip = some rs → ∃ r ∈ rs, r.Contains px py

namespace WallpaperIcon

/-- `focus_enter`. -/
def focusEnter (icon : WallpaperIcon) : WallpaperIcon := { icon with hilighted := true }

/-- `focus_leave`. -/
def focusLeave (icon : WallpaperIcon) : WallpaperIcon := { icon with hilighted := false }

end WallpaperIcon

/-- The wallpaper's state.  Images are named by the file they were loaded from. -/
structure WallpaperWindow where
  /-- The wallpaper's window. -/
  wid : Nat
  /-- Its width. -/
  width : Int
  /-- Its height. -/
  height : Int
  /-- The image painted. -/
  background : Nat
  /-- The image `animate_new` loaded; the attribute is missing before the first reload. -/
  newBackground : Option Nat
  /-- The desktop icons, in the order of the `.desktop` file. -/
  icons : List WallpaperIcon
  /-- The icon under the pointer, if any. -/
  focusedIcon : Option Nat
  /-- `self.animations`. -/
  animations : AnimationTable
  /-- The focus callbacks made so far, newest first. -/
  focusLog : List FocusCall

namespace WallpaperWindow

/-- `__init__`: a window of the display's size, nothing focused or animated. -/
def init (wid : Nat) (width height : Int) (background : Nat) (icons : List WallpaperIcon) :
    WallpaperWindow :=
  ⟨wid, width, height, background, none, icons, none, .empty, []⟩

/-- `animate_new` with the image its `load_wallpaper()` loaded: start the cross-fade toward it
now.  A load that raises changes nothing here; the loop raises it (`Session.dispatch`). -/
def animateNew (image : Nat) (now : ℚ) (w : WallpaperWindow) : WallpaperWindow :=
  { w with newBackground := some image, animations := w.animations.set .wallpaper now }

/-- `add_animation(icon)`: start the icon's bounce now. -/
def addAnimation (i : Nat) (now : ℚ) (w : WallpaperWindow) : WallpaperWindow :=
  { w with animations := w.animations.set (.icon i) now }

/-- `ctx.rectangle(clip.x, clip.y, clip.width, clip.height)` for a key: the window is at
`(0, 0)`, an icon where it was last drawn. -/
def keyRect (w : WallpaperWindow) : AnimationKey → Option Rect
  | .wallpaper => some ⟨0, 0, w.width, w.height⟩
  | .icon i => w.icons[i]?.map fun icon => ⟨icon.x, icon.y, icon.width, icon.height⟩

/-- `not clips or icon in clips or icon in self.animations or self in self.animations`. -/
def drawsIcon (clips : List AnimationKey) (animations : AnimationTable) (i : Nat) : Bool :=
  clips.isEmpty || clips.contains (.icon i) || (animations.find (.icon i)).isSome ||
    (animations.find .wallpaper).isSome

/-- `icon.draw(self, (offset_x, offset_y), ...)` for the icons drawn: each remembers the
place the layout gives it. -/
def placeIcons (draws : Nat → Bool) : Nat → List WallpaperIcon → List Rect → List WallpaperIcon
  | i, icon :: icons, r :: rects =>
    (if draws i then { icon with x := r.x, y := r.y } else icon) :: placeIcons draws (i + 1) icons rects
  | _, icons, _ => icons

/-- The clip of `draw(clips)`: the rectangles of `clips`, then of every animated key. -/
def clipFor (clips : List AnimationKey) (w : WallpaperWindow) : Option (List Rect) :=
  if clips = [] then none else some ((clips ++ w.animations.keys).filterMap w.keyRect)

/-- The icons `draw(clips)` paints, by index. -/
def drawnIcons (clips : List AnimationKey) (w : WallpaperWindow) : List Nat :=
  (List.range w.icons.length).filter (drawsIcon clips w.animations)

/-- The icons after `draw(clips)`: each one drawn remembers its place in the layout. -/
def drawIcons (clips : List AnimationKey) (w : WallpaperWindow) : List WallpaperIcon :=
  placeIcons (drawsIcon clips w.animations) 0 w.icons (iconRects w.height w.icons)

/-- `draw(clips)`: the state afterwards and the frame painted.  The cross-fade ends, and the
new wallpaper replaces the old, when it has run for a second at the draw's reading `now`. -/
def draw (clips : List AnimationKey) (now : ℚ) (w : WallpaperWindow) :
    Except String (WallpaperWindow × Frame) :=
  let drawn := { w with icons := w.drawIcons clips }
  let frame : Frame := ⟨w.clipFor clips, now, w.drawnIcons clips⟩
  match w.animations.find .wallpaper with
  | none => .ok (drawn, frame)
  | some start =>
    match w.newBackground with
    | none => .error "AttributeError: 'WallpaperWindow' object has no attribute 'new_background'"
    | some image =>
      if now - start ≥ 1 then
        .ok ({ drawn with
          background := image
          animations := w.animations.filter (fun e => e.1 ≠ .wallpaper) }, frame)
      else .ok (drawn, frame)

/-- `animate`: draw with every animated key as a clip at the reading `drawNow`, then end
every bounce that started more than half a second before the reading `tick`. -/
def animate (tick drawNow : ℚ) (w : WallpaperWindow) : Except String (WallpaperWindow × Frame) := do
  let (w', frame) ← w.draw w.animations.keys drawNow
  pure ({ w' with animations := w'.animations.filter (fun e => e.1 = .wallpaper ∨ ¬ tick - e.2 > 1 / 2) },
    frame)

/-- Make focus callbacks on the icons and move the focus. -/
def applyFocus (calls : List FocusCall) (focused : Option Nat) (w : WallpaperWindow) :
    WallpaperWindow :=
  { w with
    icons := calls.foldl (FocusCall.apply WallpaperIcon.focusEnter WallpaperIcon.focusLeave) w.icons
    focusedIcon := focused
    focusLog := calls.reverse ++ w.focusLog }

/-- The hit-test branch of `mouse_action`.  A click on the focused icon runs its action,
`launch_application`: start its bounce and run its command.  `WallpaperIcon.mouse_action`
returns `None`, so that branch never redraws. -/
def pointerMoved (msg : WindowMouseEvent) (now : ℚ) (w : WallpaperWindow) :
    Except String (WallpaperWindow × List Frame × List Effect) :=
  let under := iconUnderMouse w.height msg.newX msg.newY w.icons
  if under ≠ w.focusedIcon then
    let w' := w.applyFocus (switchCalls w.focusedIcon under) under
    if w.focusedIcon.isSome || under.isSome then
      (fun r => (r.1, [r.2], [])) <$>
        w'.draw ((w.focusedIcon.map .icon).toList ++ (under.map .icon).toList) now
    else .ok (w', [], [])
  else
    match under.bind (w.icons[·]?) with
    | none => .ok (w, [], [])
    | some icon =>
      if msg.command = MouseEvent.CLICK then
        .ok (w.addAnimation (under.getD 0) now, [], [.launchApp icon.data false])
      else .ok (w, [], [])

/-- `mouse_action`.  `now` is the clock reading of the draw or the launch it makes. -/
def mouseAction (msg : WindowMouseEvent) (now : ℚ) (w : WallpaperWindow) :
    Except String (WallpaperWindow × List Frame × List Effect) :=
  match w.focusedIcon with
  | some f =>
    if msg.command = MouseEvent.LEAVE ∨ msg.newY ≥ w.height then
      (fun r => (r.1, [r.2], [])) <$> (w.applyFocus [.leave f] none).draw [.icon f] now
    else w.pointerMoved msg now
  | none => w.pointerMoved msg now

/-- `finish_resize`: take the new size, then redraw all of it. -/
def finishResize (width height : Int) (now : ℚ) (w : WallpaperWindow) :
    Except String (WallpaperWindow × Frame) :=
  { w with width := width, height := height }.draw [] now

end WallpaperWindow

/-- What reaches the wallpaper, with the clock readings each handler takes. -/
inductive WallpaperEvent where
  /-- `wallpaper.draw()`, as at startup. -/
  | draw (now : ℚ)
  /-- `SIGUSR1`: `animate_new` with the image loaded. -/
  | animateNew (image : Nat) (now : ℚ)
  /-- A mouse event on the wallpaper's window. -/
  | mouse (msg : WindowMouseEvent) (now : ℚ)
  /-- `MSG_TIMER_TICK`: `animate` while an animation runs; `tick` is its first reading. -/
  | timerTick (tick drawNow : ℚ)
  /-- A resize offer for the wallpaper's window. -/
  | finishResize (width height : Int) (now : ℚ)
deriving DecidableEq, Repr

namespace WallpaperWindow

/-- Handle an event: the state afterwards, the frames painted and the requests made. -/
def handle : WallpaperEvent → WallpaperWindow → Except String (WallpaperWindow × List Frame × List Effect)
  | .draw now, w => (fun r => (r.1, [r.2], [])) <$> w.draw [] now
  | .animateNew image now, w => .ok (w.animateNew image now, [], [])
  | .mouse msg now, w => w.mouseAction msg now
  | .timerTick tick drawNow, w =>
    if w.animations.entries = [] then .ok (w, [], [])
    else (fun r => (r.1, [r.2], [])) <$> w.animate tick drawNow
  | .finishResize width height now, w => (fun r => (r.1, [r.2], [])) <$> w.finishResize width height now

/-- The states a run of events reaches from a fresh window. -/
inductive Reachable : WallpaperWindow → Prop
  | init (wid : Nat) (width height : Int) (background : Nat) (icons : List WallpaperIcon) :
      (∀ icon ∈ icons, icon.hilighted = false) → Reachable (init wid width height background icons)
  | step {w w' : WallpaperWindow} {e : WallpaperEvent} {frames : List Frame} {effects : List Effect} :
      Reachable w → w.handle e = .ok (w', frames, effects) → Reachable w'

/-! ## What one draw does -/

/-- `draw` places the icons and paints the frame of its clip; it either leaves the
background and the table alone, the cross-fade younger than a second, or ends the
cross-fade and shows the new wallpaper. -/
theorem draw_spec {clips : List AnimationKey} {now : ℚ} {w w' : WallpaperWindow} {f : Frame}
    (h : w.draw clips now = .ok (w', f)) :
    f = ⟨w.clipFor clips, now, w.drawnIcons clips⟩ ∧
    w' = { w with
      icons := w.drawIcons clips
      background := w'.background
      animations := w'.animations } ∧
    ((w'.background = w.background ∧ w'.animations = w.animations ∧
        ∀ s, w.animations.find .wallpaper = some s → now - s < 1) ∨
      (∃ s, w.animations.find .wallpaper = some s ∧ 1 ≤ now - s ∧
        w.newBackground = some w'.background ∧
        w'.animations = w.animations.filter (fun e => e.1 ≠ .wallpaper))) := by
  unfold draw at h
  split at h
  · next hnone =>
    cases h
    exact ⟨rfl, rfl, Or.inl ⟨rfl, rfl, by simp [hnone]⟩⟩
  · next start hstart =>
    split at h
    · cases h
    · next image himage =>
      split at h
      · next hlate =>
        cases h
        exact ⟨rfl, rfl, Or.inr ⟨start, hstart, hlate, himage, rfl⟩⟩
      · next hearly =>
        cases h
        exact ⟨rfl, rfl, Or.inl ⟨rfl, rfl, fun s hs => by
          rw [hstart, Option.some.injEq] at hs; subst hs; exact lt_of_not_ge hearly⟩⟩

@[simp] theorem applyFocus_animations (calls : List FocusCall) (focused : Option Nat)
    (w : WallpaperWindow) : (w.applyFocus calls focused).animations = w.animations := rfl

@[simp] theorem applyFocus_background (calls : List FocusCall) (focused : Option Nat)
    (w : WallpaperWindow) : (w.applyFocus calls focused).background = w.background := rfl

@[simp] theorem applyFocus_newBackground (calls : List FocusCall) (focused : Option Nat)
    (w : WallpaperWindow) : (w.applyFocus calls focused).newBackground = w.newBackground := rfl

@[simp] theorem applyFocus_width (calls : List FocusCall) (focused : Option Nat)
    (w : WallpaperWindow) : (w.applyFocus calls focused).width = w.width := rfl

@[simp] theorem applyFocus_height (calls : List FocusCall) (focused : Option Nat)
    (w : WallpaperWindow) : (w.applyFocus calls focused).height = w.height := rfl

@[simp] theorem applyFocus_focusedIcon (calls : List FocusCall) (focused : Option Nat)
    (w : WallpaperWindow) : (w.applyFocus calls focused).focusedIcon = focused := rfl

@[simp] theorem applyFocus_focusLog (calls : List FocusCall) (focused : Option Nat)
    (w : WallpaperWindow) : (w.applyFocus calls focused).focusLog = calls.reverse ++ w.focusLog := rfl

/-! ## What one mouse event does -/

/-- A handler that draws once: its state and its one frame are the draw's. -/
theorem oneFrame_eq_ok {x : Except String (WallpaperWindow × Frame)} {w' : WallpaperWindow}
    {frames : List Frame} {effects : List Effect}
    (h : (fun r => (r.1, [r.2], ([] : List Effect))) <$> x = .ok (w', frames, effects)) :
    ∃ f, x = .ok (w', f) ∧ frames = [f] := by
  obtain ⟨⟨w₁, f⟩, hx, hr⟩ := map_eq_ok.mp h
  simp only [Prod.mk.injEq] at hr
  obtain ⟨rfl, rfl, -⟩ := hr
  exact ⟨f, hx, rfl⟩

/-- The keys of icons, as a focus move passes them to `draw`, name no cross-fade. -/
theorem iconKeys_ne_wallpaper (a b : Option Nat) :
    ∀ k ∈ (a.map AnimationKey.icon).toList ++ (b.map AnimationKey.icon).toList, k ≠ .wallpaper := by
  rintro k hk rfl
  cases a <;> cases b <;> simp at hk

/-- The hit-test branch moves the focus and redraws, launches the focused icon, or does
nothing. -/
theorem pointerMoved_cases {msg : WindowMouseEvent} {now : ℚ} {w w' : WallpaperWindow}
    {frames : List Frame} {effects : List Effect}
    (h : w.pointerMoved msg now = .ok (w', frames, effects)) :
    (∃ under clips f, under ≠ w.focusedIcon ∧
      (w.applyFocus (switchCalls w.focusedIcon under) under).draw clips now = .ok (w', f) ∧
      frames = [f] ∧ (∀ k ∈ clips, k ≠ .wallpaper) ∧ clips ≠ []) ∨
    (∃ i, w.focusedIcon = some i ∧ w' = w.addAnimation i now ∧ frames = []) ∨
    (w' = w ∧ frames = []) := by
  unfold pointerMoved at h
  dsimp only at h
  by_cases hne : iconUnderMouse w.height msg.newX msg.newY w.icons = w.focusedIcon
  · rw [if_neg (not_not.mpr hne)] at h
    cases hb : (iconUnderMouse w.height msg.newX msg.newY w.icons).bind (w.icons[·]?) with
    | none => rw [hb] at h; cases h; exact Or.inr (Or.inr ⟨rfl, rfl⟩)
    | some icon =>
      simp only [hb] at h
      obtain ⟨i, hi, -⟩ := Option.bind_eq_some.mp hb
      split at h
      · simp only [Except.ok.injEq, Prod.mk.injEq] at h
        obtain ⟨rfl, rfl, -⟩ := h
        exact Or.inr (Or.inl ⟨i, hne.symm.trans hi, by rw [hi]; rfl, rfl⟩)
      · cases h; exact Or.inr (Or.inr ⟨rfl, rfl⟩)
  · rw [if_pos hne] at h
    have hsome : (w.focusedIcon.isSome ||
        (iconUnderMouse w.height msg.newX msg.newY w.icons).isSome) = true := by
      cases hu : iconUnderMouse w.height msg.newX msg.newY w.icons <;>
        cases hf : w.focusedIcon <;> simp_all
    rw [if_pos hsome] at h
    obtain ⟨f, hd, rfl⟩ := oneFrame_eq_ok h
    refine Or.inl ⟨_, _, f, hne, hd, rfl, iconKeys_ne_wallpaper _ _, ?_⟩
    cases hu : iconUnderMouse w.height msg.newX msg.newY w.icons <;>
      cases hf : w.focusedIcon <;> simp_all

/-- A mouse event moves the focus (leaving the focused icon is a move to nothing) and
redraws, launches the focused icon, or does nothing. -/
theorem mouseAction_cases {msg : WindowMouseEvent} {now : ℚ} {w w' : WallpaperWindow}
    {frames : List Frame} {effects : List Effect}
    (h : w.mouseAction msg now = .ok (w', frames, effects)) :
    (∃ under clips f, under ≠ w.focusedIcon ∧
      (w.applyFocus (switchCalls w.focusedIcon under) under).draw clips now = .ok (w', f) ∧
      frames = [f] ∧ (∀ k ∈ clips, k ≠ .wallpaper) ∧ clips ≠ []) ∨
    (∃ i, w.focusedIcon = some i ∧ w' = w.addAnimation i now ∧ frames = []) ∨
    (w' = w ∧ frames = []) := by
  unfold mouseAction at h
  split at h
  · next f hf =>
    split at h
    · obtain ⟨fr, hd, rfl⟩ := oneFrame_eq_ok h
      refine Or.inl ⟨none, [.icon f], fr, by simp [hf], ?_, rfl, by simp, by simp⟩
      rw [hf]; exact hd
    · exact pointerMoved_cases h
  · exact pointerMoved_cases h

/-! ## What one event does -/

/-- An event draws the whole window (at startup or after a resize), starts the cross-fade,
is a mouse event, or is a timer tick that animates or finds nothing running. -/
theorem handle_cases {e : WallpaperEvent} {w w' : WallpaperWindow} {frames : List Frame}
    {effects : List Effect} (h : w.handle e = .ok (w', frames, effects)) :
    (∃ now f, e = .draw now ∧ w.draw [] now = .ok (w', f) ∧ frames = [f]) ∨
    (∃ width height now f, e = .finishResize width height now ∧
      { w with width := width, height := height }.draw [] now = .ok (w', f) ∧ frames = [f]) ∨
    (∃ image now, e = .animateNew image now ∧ w' = w.animateNew image now ∧ frames = []) ∨
    (∃ msg now, e = .mouse msg now ∧ w.mouseAction msg now = .ok (w', frames, effects)) ∨
    (∃ tick drawNow, e = .timerTick tick drawNow ∧ w.animations.entries = [] ∧ w' = w ∧
      frames = []) ∨
    (∃ tick drawNow f, e = .timerTick tick drawNow ∧ w.animate tick drawNow = .ok (w', f) ∧
      frames = [f] ∧ w.animations.entries ≠ []) := by
  cases e with
  | draw now =>
    obtain ⟨f, hd, rfl⟩ := oneFrame_eq_ok h
    exact .inl ⟨now, f, rfl, hd, rfl⟩
  | finishResize width height now =>
    obtain ⟨f, hd, rfl⟩ := oneFrame_eq_ok h
    exact .inr (.inl ⟨width, height, now, f, rfl, hd, rfl⟩)
  | animateNew image now =>
    simp only [handle, Except.ok.injEq, Prod.mk.injEq] at h
    obtain ⟨rfl, rfl, -⟩ := h
    exact .inr (.inr (.inl ⟨image, now, rfl, rfl, rfl⟩))
  | mouse msg now => exact .inr (.inr (.inr (.inl ⟨msg, now, rfl, h⟩)))
  | timerTick tick drawNow =>
    rw [handle] at h
    split at h
    · next hempty =>
      cases h
      exact .inr (.inr (.inr (.inr (.inl ⟨tick, drawNow, rfl, hempty, rfl, rfl⟩))))
    · next hne =>
      obtain ⟨f, ha, rfl⟩ := oneFrame_eq_ok h
      exact .inr (.inr (.inr (.inr (.inr ⟨tick, drawNow, f, rfl, ha, rfl, hne⟩))))

/-! ## The focus protocol -/

/-- The highlight flag of the icon at index `j`, if there is one. -/
def hilightedAt (icons : List WallpaperIcon) (j : Nat) : Option Bool :=
  icons[j]?.map WallpaperIcon.hilighted

/-- Placing icons changes only where they are. -/
theorem placeIcons_map {β : Type} (g : WallpaperIcon → β)
    (hg : ∀ icon a b, g { icon with x := a, y := b } = g icon) (draws : Nat → Bool) :
    ∀ (n : Nat) (icons : List WallpaperIcon) (rects : List Rect) (j : Nat),
      (placeIcons draws n icons rects)[j]?.map g = icons[j]?.map g
  | _, [], _, _ => by simp [placeIcons]
  | _, _ :: _, [], _ => by simp [placeIcons]
  | n, icon :: icons, r :: rects, 0 => by
    simp only [placeIcons, List.getElem?_cons_zero, Option.map_some', Option.some.injEq]
    split
    · exact hg icon r.x r.y
    · rfl
  | n, icon :: icons, r :: rects, j + 1 => by
    simp only [placeIcons, List.getElem?_cons_succ]
    exact placeIcons_map g hg draws (n + 1) icons rects j

@[simp] theorem hilightedAt_drawIcons (clips : List AnimationKey) (w : WallpaperWindow) (j : Nat) :
    hilightedAt (w.drawIcons clips) j = hilightedAt w.icons j :=
  placeIcons_map WallpaperIcon.hilighted (fun _ _ _ => rfl) _ _ _ _ _

@[simp] theorem drawIcons_map_const {β : Type} (c : β) (clips : List AnimationKey)
    (w : WallpaperWindow) (j : Nat) :
    (w.drawIcons clips)[j]?.map (fun _ => c) = w.icons[j]?.map (fun _ => c) :=
  placeIcons_map (fun _ => c) (fun _ _ _ => rfl) _ _ _ _ _

@[simp] theorem hilightedAt_modify_enter (icons : List WallpaperIcon) (i j : Nat) :
    hilightedAt (icons.modify WallpaperIcon.focusEnter i) j =
      if i = j then icons[j]?.map (fun _ => true) else hilightedAt icons j := by
  simp only [hilightedAt, List.getElem?_modify]
  cases icons[j]? <;> split <;> simp_all [WallpaperIcon.focusEnter]

@[simp] theorem hilightedAt_modify_leave (icons : List WallpaperIcon) (i j : Nat) :
    hilightedAt (icons.modify WallpaperIcon.focusLeave i) j =
      if i = j then icons[j]?.map (fun _ => false) else hilightedAt icons j := by
  simp only [hilightedAt, List.getElem?_modify]
  cases icons[j]? <;> split <;> simp_all [WallpaperIcon.focusLeave]

@[simp] theorem modify_map_const {β : Type} (c : β) (f : WallpaperIcon → WallpaperIcon)
    (icons : List WallpaperIcon) (i j : Nat) :
    (icons.modify f i)[j]?.map (fun _ => c) = icons[j]?.map (fun _ => c) := by
  simp only [List.getElem?_modify]
  cases icons[j]? <;> simp

/-- The log agrees with the focus, and the highlighted icons are exactly the focused one. -/
def FocusProtocol (w : WallpaperWindow) : Prop :=
  FocusInv w.focusedIcon w.focusLog ∧
    ∀ j, hilightedAt w.icons j = w.icons[j]?.map fun _ => decide (w.focusedIcon = some j)

theorem focusProtocol_draw {clips : List AnimationKey} {now : ℚ} {w w' : WallpaperWindow}
    {f : Frame} (h : w.draw clips now = .ok (w', f)) (hp : w.FocusProtocol) : w'.FocusProtocol := by
  obtain ⟨-, hw', -⟩ := draw_spec h
  rw [hw']
  exact ⟨hp.1, fun j => by simpa using hp.2 j⟩

/-- A focus move: leave the focused icon, enter the one under the pointer. -/
theorem focusProtocol_switch {w : WallpaperWindow} (hp : w.FocusProtocol) {under : Option Nat}
    (hne : under ≠ w.focusedIcon) :
    (w.applyFocus (switchCalls w.focusedIcon under) under).FocusProtocol := by
  refine ⟨hp.1.switch hne, fun j => ?_⟩
  have hj := hp.2 j
  cases hf : w.focusedIcon <;> cases hu : under <;> rw [hf] at hj <;>
    simp only [applyFocus, switchCalls, hf, hu, Option.map_some', Option.map_none',
      Option.toList_some, Option.toList_none, List.nil_append, List.append_nil,
      List.singleton_append, List.foldl_cons, List.foldl_nil, FocusCall.apply,
      hilightedAt_modify_enter, hilightedAt_modify_leave, modify_map_const] <;>
    (try split_ifs) <;> simp_all

theorem focusProtocol_mouseAction {msg : WindowMouseEvent} {now : ℚ} {w w' : WallpaperWindow}
    {frames : List Frame} {effects : List Effect} (hp : w.FocusProtocol)
    (h : w.mouseAction msg now = .ok (w', frames, effects)) : w'.FocusProtocol := by
  rcases mouseAction_cases h with ⟨under, clips, f, hne, hd, -⟩ | ⟨i, -, rfl, -⟩ | ⟨rfl, -⟩
  · exact focusProtocol_draw hd (focusProtocol_switch hp hne)
  · exact hp
  · exact hp

/-! ## The animation lifecycle -/

theorem animate_spec {tick drawNow : ℚ} {w w' : WallpaperWindow} {f : Frame}
    (h : w.animate tick drawNow = .ok (w', f)) :
    ∃ w₁, w.draw w.animations.keys drawNow = .ok (w₁, f) ∧
      w' = { w₁ with animations :=
        w₁.animations.filter (fun e => e.1 = .wallpaper ∨ ¬ tick - e.2 > 1 / 2) } := by
  unfold animate at h
  cases hd : w.draw w.animations.keys drawNow with
  | error e => rw [hd] at h; cases h
  | ok r =>
    obtain ⟨w₁, f₁⟩ := r
    rw [hd] at h
    simp only [bind, Except.bind, pure, Except.pure, Except.ok.injEq, Prod.mk.injEq] at h
    obtain ⟨rfl, rfl⟩ := h
    exact ⟨w₁, rfl, rfl⟩

/-- A running cross-fade has its new wallpaper loaded. -/
def FadeReady (w : WallpaperWindow) : Prop :=
  w.animations.find .wallpaper ≠ none → w.newBackground ≠ none

/-- With the new wallpaper loaded whenever the cross-fade runs, `draw` does not raise. -/
theorem draw_ok (w : WallpaperWindow) (hw : w.FadeReady) (clips : List AnimationKey) (now : ℚ) :
    ∃ r, w.draw clips now = .ok r := by
  unfold draw
  split
  · exact ⟨_, rfl⟩
  · next s hs =>
    split
    · next hn => exact absurd hn (hw (by simp [hs]))
    · split <;> exact ⟨_, rfl⟩

theorem fadeReady_draw {clips : List AnimationKey} {now : ℚ} {w w' : WallpaperWindow} {f : Frame}
    (h : w.draw clips now = .ok (w', f)) (hw : w.FadeReady) : w'.FadeReady := by
  obtain ⟨-, hw', hcases⟩ := draw_spec h
  have hn : w'.newBackground = w.newBackground := by rw [hw']
  rcases hcases with ⟨-, ha, -⟩ | ⟨s, hs, -, himage, -⟩
  · intro hf; rw [hn]; exact hw (ha ▸ hf)
  · intro _; rw [hn, himage]; simp

theorem mouseAction_ok (w : WallpaperWindow) (hw : w.FadeReady) (msg : WindowMouseEvent) (now : ℚ) :
    ∃ r, w.mouseAction msg now = .ok r := by
  have hmoved : ∃ r, w.pointerMoved msg now = .ok r := by
    unfold pointerMoved
    dsimp only
    split
    · split
      · exact map_ok_of_ok _ (draw_ok (w.applyFocus _ _) hw _ _)
      · exact ⟨_, rfl⟩
    · split
      · exact ⟨_, rfl⟩
      · split <;> exact ⟨_, rfl⟩
  unfold mouseAction
  split
  · split
    · exact map_ok_of_ok _ (draw_ok (w.applyFocus _ _) hw _ _)
    · exact hmoved
  · exact hmoved

theorem handle_invariant {e : WallpaperEvent} {w w' : WallpaperWindow} {frames : List Frame}
    {effects : List Effect} (hp : w.FocusProtocol) (hw : w.FadeReady)
    (h : w.handle e = .ok (w', frames, effects)) : w'.FocusProtocol ∧ w'.FadeReady := by
  rcases handle_cases h with ⟨now, f, -, hd, -⟩ | ⟨width, height, now, f, -, hd, -⟩ |
    ⟨image, now, -, rfl, -⟩ | ⟨msg, now, -, hm⟩ | ⟨tick, drawNow, -, -, rfl, -⟩ |
    ⟨tick, drawNow, f, -, ha, -⟩
  · exact ⟨focusProtocol_draw hd hp, fadeReady_draw hd hw⟩
  · exact ⟨focusProtocol_draw hd hp, fadeReady_draw hd hw⟩
  · exact ⟨hp, fun _ => by simp [animateNew]⟩
  · refine ⟨focusProtocol_mouseAction hp hm, ?_⟩
    rcases mouseAction_cases hm with ⟨under, clips, f, -, hd, -⟩ | ⟨i, -, rfl, -⟩ | ⟨rfl, -⟩
    · exact fadeReady_draw hd hw
    · intro hf
      rw [addAnimation, AnimationTable.find_set_ne _ _ (by simp)] at hf
      exact hw hf
    · exact hw
  · exact ⟨hp, hw⟩
  · obtain ⟨w₂, hd, rfl⟩ := animate_spec ha
    have hp₂ := focusProtocol_draw hd hp
    refine ⟨hp₂, fun hf => fadeReady_draw hd hw ?_⟩
    rw [AnimationTable.find_filter] at hf
    intro hnone
    rw [hnone] at hf
    exact hf rfl

theorem Reachable.invariant {w : WallpaperWindow} (hw : w.Reachable) :
    w.FocusProtocol ∧ w.FadeReady := by
  induction hw with
  | init wid width height background icons hfresh =>
    refine ⟨⟨FocusInv.init, fun j => ?_⟩, fun h => absurd rfl h⟩
    cases hj : icons[j]? with
    | none => simp [hilightedAt, WallpaperWindow.init, hj]
    | some icon => simp [hilightedAt, WallpaperWindow.init, hj, hfresh icon (List.getElem?_mem hj)]
  | step _ hstep ih => exact handle_invariant ih.1 ih.2 hstep

end WallpaperWindow

end ToaruPanel
