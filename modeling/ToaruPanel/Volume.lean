import ToaruPanel.Basic

/-!
# The volume widget

`VolumeWidget` keeps the mixer level the panel shows, a mute flag, and the level it saved
when it muted.  A click toggles mute; a scroll up or down moves the level by
`0x10000000`, clamping at `0xF0000000` and `0`.  Each of these writes the new level to the
mixer through `set_volume`, whose `struct.pack("III", 0, 0, volume)` fails for a level
outside `[0, 2^32)`.  Any other mouse event leaves the widget alone.

The widget starts from the mixer's own reading, an unsigned 32-bit value.  `Bounded` says
both levels are in `[0, 2^32)`.  One event keeps it and, when it is a click or a scroll,
leaves the mixer at the widget's level (`mouseAction_spec`); so a run of events from the
first reading never fails (`run_bounded`).

`mouseAction_cases` says once what an event does, and `run_induction` carries a property kept
by every event along a run.  Two such properties: a level above the clamp `0xF0000000` is
the first reading itself (`HighOnlyReading`), which is why a scroll up can lower the level
(`scroll_up_lowers_only_high_reading`); and while the widget is muted, the saved level is the
one from just before the click that muted it, the last click of the run (`MutedBy`), so the
next click restores it whatever scrolls came between (`unmute_restores_level_before_mute`).
-/

namespace ToaruPanel

/-- The state of the volume widget, with the last level written to the mixer. -/
structure VolumeWidget where
  /-- The level shown and, after every click or scroll, set. -/
  volume : Int
  /-- Whether a click muted the mixer. -/
  muted : Bool
  /-- The level saved by the click that muted. -/
  previousVolume : Int
  /-- The level of the last `set_volume`, if there was one. -/
  lastSet : Option Int
deriving DecidableEq, Repr

namespace VolumeWidget

/-- `__init__`: the level is the mixer's reading (`get_volume` unpacks an unsigned int). -/
def init (reading : UInt32) : VolumeWidget :=
  ⟨reading.toNat, false, 0, none⟩

/-- `set_volume`: pack the level and write it to the mixer. -/
def setVolume (w : VolumeWidget) : Except String VolumeWidget := do
  let _ ← packIII 0 0 w.volume
  pure { w with lastSet := some w.volume }

/-- `volume_up`. -/
def volumeUp (w : VolumeWidget) : Except String VolumeWidget :=
  setVolume { w with volume := if w.volume > 0xE0000000 then 0xF0000000 else w.volume + 0x10000000 }

/-- `volume_down`. -/
def volumeDown (w : VolumeWidget) : Except String VolumeWidget :=
  setVolume { w with volume := if w.volume < 0x20000000 then 0 else w.volume - 0x10000000 }

/-- `mouse_action`: the new state, and whether the panel must redraw (`True`, or `None`). -/
def mouseAction (w : VolumeWidget) (msg : WindowMouseEvent) : Except String (VolumeWidget × Bool) :=
  if msg.command = MouseEvent.CLICK then
    if w.muted then (·, true) <$> setVolume { w with muted := false, volume := w.previousVolume }
    else (·, true) <$> setVolume { w with muted := true, previousVolume := w.volume, volume := 0 }
  else if hasBit msg.buttons MouseButton.SCROLL_UP then (·, true) <$> volumeUp w
  else if hasBit msg.buttons MouseButton.SCROLL_DOWN then (·, true) <$> volumeDown w
  else .ok (w, false)

/-- The widget after a run of mouse events, or the error that ended it. -/
def run (w : VolumeWidget) (msgs : List WindowMouseEvent) : Except String VolumeWidget :=
  msgs.foldlM (fun w msg => Prod.fst <$> w.mouseAction msg) w

/-- A level `struct.pack` accepts as an unsigned int. -/
def InRange (v : Int) : Prop := 0 ≤ v ∧ v < 2 ^ 32

/-- Both levels of the widget are in range. -/
def Bounded (w : VolumeWidget) : Prop := InRange w.volume ∧ InRange w.previousVolume

end VolumeWidget

/-- The events `mouse_action` acts on: a click, or a scroll up or down. -/
def WindowMouseEvent.IsClickOrScroll (msg : WindowMouseEvent) : Prop :=
  msg.command = MouseEvent.CLICK ∨ hasBit msg.buttons MouseButton.SCROLL_UP ∨
    hasBit msg.buttons MouseButton.SCROLL_DOWN

namespace VolumeWidget

theorem init_bounded (reading : UInt32) : (init reading).Bounded := by
  have : reading.toNat < 2 ^ 32 := reading.val.isLt
  simp only [Bounded, InRange, init]
  omega

theorem setVolume_ok {w : VolumeWidget} (h : InRange w.volume) :
    w.setVolume = .ok { w with lastSet := some w.volume } := by
  simp only [setVolume, InRange] at *
  rw [packIII_ok (by decide) (by decide) h]
  rfl

theorem setVolume_map_ok {w : VolumeWidget} (h : InRange w.volume) :
    (·, true) <$> w.setVolume = .ok ({ w with lastSet := some w.volume }, true) := by
  rw [setVolume_ok h]; rfl

theorem volumeUp_ok {w : VolumeWidget} (h : w.Bounded) :
    ∃ w', w.volumeUp = .ok w' ∧ w'.Bounded ∧ w'.lastSet = some w'.volume := by
  have hv : InRange (if w.volume > 0xE0000000 then 0xF0000000 else w.volume + 0x10000000) := by
    unfold Bounded InRange at h; unfold InRange; split <;> omega
  exact ⟨_, setVolume_ok hv, ⟨hv, h.2⟩, rfl⟩

theorem volumeDown_ok {w : VolumeWidget} (h : w.Bounded) :
    ∃ w', w.volumeDown = .ok w' ∧ w'.Bounded ∧ w'.lastSet = some w'.volume := by
  have hv : InRange (if w.volume < 0x20000000 then 0 else w.volume - 0x10000000) := by
    unfold Bounded InRange at h; unfold InRange; split <;> omega
  exact ⟨_, setVolume_ok hv, ⟨hv, h.2⟩, rfl⟩

/-- One mouse event keeps the levels in range, and after a click or a scroll the mixer holds
the widget's level. -/
theorem mouseAction_spec {w : VolumeWidget} (h : w.Bounded) (msg : WindowMouseEvent) :
    ∃ w' redraw, w.mouseAction msg = .ok (w', redraw) ∧ w'.Bounded ∧
      (msg.IsClickOrScroll → w'.lastSet = some w'.volume) := by
  have h0 : InRange 0 := by unfold InRange; decide
  unfold mouseAction
  split
  · split
    · exact ⟨_, _, @setVolume_map_ok { w with muted := false, volume := w.previousVolume } h.2,
        ⟨h.2, h.2⟩, fun _ => rfl⟩
    · exact ⟨_, _, @setVolume_map_ok { w with muted := true, previousVolume := w.volume, volume := 0 }
        h0, ⟨h0, h.1⟩, fun _ => rfl⟩
  · split
    · obtain ⟨w', hw, hb, hl⟩ := volumeUp_ok h
      exact ⟨w', _, by rw [hw]; rfl, hb, fun _ => hl⟩
    · split
      · obtain ⟨w', hw, hb, hl⟩ := volumeDown_ok h
        exact ⟨w', _, by rw [hw]; rfl, hb, fun _ => hl⟩
      · refine ⟨w, false, rfl, h, ?_⟩
        rintro (h1 | h2 | h3) <;> simp_all

theorem run_append (w : VolumeWidget) (msgs : List WindowMouseEvent) (msg : WindowMouseEvent) :
    w.run (msgs ++ [msg]) = (w.run msgs >>= fun w' => Prod.fst <$> w'.mouseAction msg) := by
  simp [run, List.foldlM_append]

theorem setVolume_eq {w w' : VolumeWidget} (h : w.setVolume = .ok w') :
    w' = { w with lastSet := some w.volume } := by
  unfold setVolume at h
  cases hp : packIII 0 0 w.volume with
  | error e => rw [hp] at h; cases h
  | ok r => rw [hp] at h; cases h; rfl

theorem volumeUp_level (v : Int) :
    (if v > 0xE0000000 then (0xF0000000 : Int) else v + 0x10000000) = min (v + 0x10000000) 0xF0000000 := by
  split <;> omega

/-- What one mouse event does: a click unmutes, restoring the saved level, or mutes, saving the
level; a scroll up or down moves the level; each of these writes the new level to the mixer.
Any other event changes nothing. -/
theorem mouseAction_cases {w w' : VolumeWidget} {redraw : Bool} {msg : WindowMouseEvent}
    (h : w.mouseAction msg = .ok (w', redraw)) :
    (msg.command = MouseEvent.CLICK ∧ w.muted = true ∧
      w' = { w with muted := false, volume := w.previousVolume, lastSet := some w.previousVolume }) ∨
    (msg.command = MouseEvent.CLICK ∧ w.muted = false ∧
      w' = { w with muted := true, previousVolume := w.volume, volume := 0, lastSet := some 0 }) ∨
    (msg.command ≠ MouseEvent.CLICK ∧ hasBit msg.buttons MouseButton.SCROLL_UP = true ∧
      w' = { w with
        volume := min (w.volume + 0x10000000) 0xF0000000
        lastSet := some (min (w.volume + 0x10000000) 0xF0000000) }) ∨
    (msg.command ≠ MouseEvent.CLICK ∧ hasBit msg.buttons MouseButton.SCROLL_UP = false ∧
      hasBit msg.buttons MouseButton.SCROLL_DOWN = true ∧
      w' = { w with
        volume := if w.volume < 0x20000000 then 0 else w.volume - 0x10000000
        lastSet := some (if w.volume < 0x20000000 then 0 else w.volume - 0x10000000) }) ∨
    (msg.command ≠ MouseEvent.CLICK ∧ hasBit msg.buttons MouseButton.SCROLL_UP = false ∧
      hasBit msg.buttons MouseButton.SCROLL_DOWN = false ∧ w' = w) := by
  have hset : ∀ {v : VolumeWidget}, (·, true) <$> v.setVolume = .ok (w', redraw) →
      w' = { v with lastSet := some v.volume } := fun hv => by
    obtain ⟨v', hv', he⟩ := map_eq_ok.mp hv
    cases he
    exact setVolume_eq hv'
  unfold mouseAction at h
  by_cases hc : msg.command = MouseEvent.CLICK
  · rw [if_pos hc] at h
    cases hm : w.muted
    · rw [hm] at h
      exact Or.inr (Or.inl ⟨hc, rfl, hset h⟩)
    · rw [hm] at h
      exact Or.inl ⟨hc, rfl, hset h⟩
  · rw [if_neg hc] at h
    cases hu : hasBit msg.buttons MouseButton.SCROLL_UP
    · cases hd : hasBit msg.buttons MouseButton.SCROLL_DOWN
      · rw [hu, hd] at h
        cases h
        exact Or.inr (Or.inr (Or.inr (Or.inr ⟨hc, rfl, rfl, rfl⟩)))
      · rw [hu, hd] at h
        exact Or.inr (Or.inr (Or.inr (Or.inl ⟨hc, rfl, rfl, hset h⟩)))
    · rw [hu] at h
      refine Or.inr (Or.inr (Or.inl ⟨hc, rfl, ?_⟩))
      rw [hset h, volumeUp_level]

/-- A run that ends in `w'` is a shorter run and one more event. -/
theorem run_append_ok {w w' : VolumeWidget} {msgs : List WindowMouseEvent} {msg : WindowMouseEvent}
    (h : w.run (msgs ++ [msg]) = .ok w') :
    ∃ w₁ redraw, w.run msgs = .ok w₁ ∧ w₁.mouseAction msg = .ok (w', redraw) := by
  rw [run_append] at h
  cases hr : w.run msgs with
  | error e => rw [hr] at h; cases h
  | ok w₁ =>
    rw [hr] at h
    obtain ⟨⟨w₂, r⟩, hm, rfl⟩ := map_eq_ok.mp h
    exact ⟨w₁, r, rfl, hm⟩

/-- A property that every mouse event keeps holds at the end of every run. -/
theorem run_induction {P : VolumeWidget → Prop}
    (step : ∀ {w w' : VolumeWidget} {msg : WindowMouseEvent} {redraw : Bool}, P w →
      w.mouseAction msg = .ok (w', redraw) → P w')
    {w : VolumeWidget} (h0 : P w) {msgs : List WindowMouseEvent} {w' : VolumeWidget}
    (h : w.run msgs = .ok w') : P w' := by
  induction msgs using List.reverseRecOn generalizing w' with
  | nil => cases h; exact h0
  | append_singleton msgs msg ih =>
    obtain ⟨w₁, r, h₁, hm⟩ := run_append_ok h
    exact step (ih h₁) hm

/-- From a widget in range, every run of mouse events succeeds, stays in range, and ends with
the mixer at the widget's level when its last event is a click or a scroll. -/
theorem run_bounded {w : VolumeWidget} (h : w.Bounded) (msgs : List WindowMouseEvent) :
    ∃ w', w.run msgs = .ok w' ∧ w'.Bounded ∧
      ∀ msg ∈ msgs.getLast?, msg.IsClickOrScroll → w'.lastSet = some w'.volume := by
  induction msgs using List.reverseRecOn with
  | nil => exact ⟨w, rfl, h, by simp⟩
  | append_singleton msgs msg ih =>
    obtain ⟨w₁, hrun, hb, -⟩ := ih
    obtain ⟨w₂, r, hstep, hb₂, hlast⟩ := mouseAction_spec hb msg
    refine ⟨w₂, ?_, hb₂, by simpa using hlast⟩
    rw [run_append, hrun]
    show Prod.fst <$> w₁.mouseAction msg = _
    rw [hstep]; rfl

end VolumeWidget

/-- From every 32-bit mixer reading and along every sequence of mouse events, the widget's
levels stay in `[0, 2^32)`, so no `set_volume` fails, and after each click or scroll the
mixer holds the widget's level. -/
theorem volume_levels_stay_packable (reading : UInt32) (msgs : List WindowMouseEvent) :
    ∃ w, (VolumeWidget.init reading).run msgs = .ok w ∧ w.Bounded ∧
      ∀ msg ∈ msgs.getLast?, msg.IsClickOrScroll → w.lastSet = some w.volume :=
  VolumeWidget.run_bounded (VolumeWidget.init_bounded reading) msgs

namespace VolumeWidget

/-! ## Along a run from the first reading -/

theorem mouseAction_bounded {w w' : VolumeWidget} {msg : WindowMouseEvent} {redraw : Bool}
    (h : w.Bounded) (hm : w.mouseAction msg = .ok (w', redraw)) : w'.Bounded := by
  obtain ⟨w₂, r, h₂, hb, -⟩ := mouseAction_spec h msg
  rw [hm, Except.ok.injEq, Prod.mk.injEq] at h₂
  exact h₂.1 ▸ hb

theorem run_init_bounded {reading : UInt32} {msgs : List WindowMouseEvent} {w : VolumeWidget}
    (h : (init reading).run msgs = .ok w) : w.Bounded :=
  run_induction mouseAction_bounded (init_bounded reading) h

/-- A level above `0xF0000000` is the mixer's first reading: the widget's own steps stop at
`0xF0000000`, and only an unmute brings a saved level back. -/
def HighOnlyReading (reading : Int) (w : VolumeWidget) : Prop :=
  (0xF0000000 < w.volume → w.volume = reading) ∧
    (0xF0000000 < w.previousVolume → w.previousVolume = reading)

theorem highOnlyReading_step {reading : Int} (hr : reading < 2 ^ 32) {w w' : VolumeWidget}
    {msg : WindowMouseEvent} {redraw : Bool} (hw : HighOnlyReading reading w)
    (h : w.mouseAction msg = .ok (w', redraw)) : HighOnlyReading reading w' := by
  rcases mouseAction_cases h with ⟨-, -, rfl⟩ | ⟨-, -, rfl⟩ | ⟨-, -, rfl⟩ | ⟨-, -, -, rfl⟩ |
    ⟨-, -, -, rfl⟩
  · exact ⟨hw.2, hw.2⟩
  · exact ⟨fun h => absurd h (by dsimp only; omega), hw.1⟩
  · exact ⟨fun h => absurd h (by dsimp only; omega), hw.2⟩
  · refine ⟨fun h => absurd h ?_, hw.2⟩
    dsimp only
    by_cases hv : 0xF0000000 < w.volume
    · have := hw.1 hv; split <;> omega
    · split <;> omega
  · exact hw

theorem run_highOnlyReading {reading : UInt32} {msgs : List WindowMouseEvent} {w : VolumeWidget}
    (h : (init reading).run msgs = .ok w) : HighOnlyReading reading.toNat w := by
  have hr : (reading.toNat : Int) < 2 ^ 32 := by
    have : reading.toNat < 2 ^ 32 := reading.val.isLt
    omega
  exact run_induction (highOnlyReading_step hr) ⟨fun _ => rfl, fun h => absurd h (by dsimp only [init]; omega)⟩ h

/-- A click that finds the widget muted was preceded by a click that muted it: while muted, the
saved level is the level just before the last click of the run, and that click found the
widget unmuted. -/
def MutedBy (reading : UInt32) (msgs : List WindowMouseEvent) (w : VolumeWidget) : Prop :=
  w.muted = true → ∃ pre c post w₀, msgs = pre ++ c :: post ∧ c.command = MouseEvent.CLICK ∧
    (∀ m ∈ post, m.command ≠ MouseEvent.CLICK) ∧ (init reading).run pre = .ok w₀ ∧
    w₀.muted = false ∧ w.previousVolume = w₀.volume

/-- An event other than a click keeps the mute flag and the saved level. -/
theorem mouseAction_keeps_mute {w w' : VolumeWidget} {msg : WindowMouseEvent} {redraw : Bool}
    (hc : msg.command ≠ MouseEvent.CLICK) (h : w.mouseAction msg = .ok (w', redraw)) :
    w'.muted = w.muted ∧ w'.previousVolume = w.previousVolume := by
  rcases mouseAction_cases h with ⟨hc', -⟩ | ⟨hc', -⟩ | ⟨-, -, rfl⟩ | ⟨-, -, -, rfl⟩ | ⟨-, -, -, rfl⟩
  · exact absurd hc' hc
  · exact absurd hc' hc
  all_goals exact ⟨rfl, rfl⟩

theorem run_mutedBy (reading : UInt32) {msgs : List WindowMouseEvent} :
    ∀ {w : VolumeWidget}, (init reading).run msgs = .ok w → MutedBy reading msgs w := by
  induction msgs using List.reverseRecOn with
  | nil => intro w h hm; cases h; cases hm
  | append_singleton msgs msg ih =>
    intro w h hm
    obtain ⟨w₁, r, h₁, hstep⟩ := run_append_ok h
    by_cases hc : msg.command = MouseEvent.CLICK
    · -- a click that leaves the widget muted is the click that muted it
      rcases mouseAction_cases hstep with ⟨-, -, rfl⟩ | ⟨-, hm₁, rfl⟩ | ⟨hc', -⟩ | ⟨hc', -⟩ | ⟨hc', -⟩
      · cases hm
      · exact ⟨msgs, msg, [], w₁, rfl, hc, by simp, h₁, hm₁, rfl⟩
      all_goals exact absurd hc hc'
    · -- any other event keeps the flag and the saved level: the last click is older
      obtain ⟨hmw, hpw⟩ := mouseAction_keeps_mute hc hstep
      obtain ⟨pre, c, post, w₀, rfl, hc₀, hpost, h₀, hm₀, hprev⟩ := ih h₁ (hmw ▸ hm)
      refine ⟨pre, c, post ++ [msg], w₀, by simp, hc₀, ?_, h₀, hm₀, hpw.trans hprev⟩
      simpa [or_imp, forall_and, hc] using hpost

/-! ## Scrolls and the mute toggle -/

/-- From every mixer reading and after every run of events, a scroll down never raises the
level, and a scroll up never lowers it unless the level is above `0xF0000000`.  A level that
high is the first reading itself (at the start, or restored by an unmute), and a scroll up
clamps it down to `0xF0000000`. -/
theorem scroll_up_lowers_only_high_reading {reading : UInt32} {msgs : List WindowMouseEvent}
    {w : VolumeWidget} (hrun : (init reading).run msgs = .ok w) {msg : WindowMouseEvent}
    (hscroll : msg.command ≠ MouseEvent.CLICK) :
    ∃ w' redraw, w.mouseAction msg = .ok (w', redraw) ∧
      (hasBit msg.buttons MouseButton.SCROLL_UP = true →
        (w.volume ≤ 0xF0000000 → w.volume ≤ w'.volume) ∧
        (0xF0000000 < w.volume → w.volume = reading.toNat ∧ w'.volume = 0xF0000000)) ∧
      (hasBit msg.buttons MouseButton.SCROLL_UP = false →
        hasBit msg.buttons MouseButton.SCROLL_DOWN = true → w'.volume ≤ w.volume) := by
  have hb := run_init_bounded hrun
  obtain ⟨w', r, hm, -, -⟩ := mouseAction_spec hb msg
  refine ⟨w', r, hm, ?_⟩
  rcases mouseAction_cases hm with ⟨hc, -⟩ | ⟨hc, -⟩ | ⟨-, hu, rfl⟩ | ⟨-, hu, hd, rfl⟩ |
    ⟨-, hu, hd, rfl⟩
  · exact absurd hc hscroll
  · exact absurd hc hscroll
  · -- `volume_up`: up one step, or down to the clamp from above it
    have hhigh := (run_highOnlyReading hrun).1
    refine ⟨fun _ => ⟨fun hv => ?_, fun hv => ⟨hhigh hv, ?_⟩⟩, by simp [hu]⟩ <;> dsimp only <;> omega
  · -- `volume_down`: down one step, or to `0`
    have := hb.1.1
    refine ⟨by simp [hu], fun _ _ => ?_⟩
    dsimp only
    split <;> omega
  · simp [hu, hd]

/-- The first reading `0xFFFFFFFF` and a scroll up. -/
theorem scroll_up_lowers_only_high_reading_topReading :
    (init 0xFFFFFFFF).run [] = .ok (init 0xFFFFFFFF) ∧
    (⟨0, 0, 0, MouseButton.SCROLL_UP, 1⟩ : WindowMouseEvent).command ≠ MouseEvent.CLICK ∧
    ∃ w' redraw, (init 0xFFFFFFFF).mouseAction ⟨0, 0, 0, MouseButton.SCROLL_UP, 1⟩ = .ok (w', redraw) ∧
      (hasBit MouseButton.SCROLL_UP MouseButton.SCROLL_UP = true →
        ((init 0xFFFFFFFF).volume ≤ 0xF0000000 → (init 0xFFFFFFFF).volume ≤ w'.volume) ∧
        (0xF0000000 < (init 0xFFFFFFFF).volume →
          (init 0xFFFFFFFF).volume = (0xFFFFFFFF : UInt32).toNat ∧ w'.volume = 0xF0000000)) ∧
      (hasBit MouseButton.SCROLL_UP MouseButton.SCROLL_UP = false →
        hasBit MouseButton.SCROLL_UP MouseButton.SCROLL_DOWN = true →
          w'.volume ≤ (init 0xFFFFFFFF).volume) :=
  have hrun : (init 0xFFFFFFFF).run [] = .ok (init 0xFFFFFFFF) := rfl
  ⟨hrun, by decide, scroll_up_lowers_only_high_reading hrun (by decide)⟩

/-- A mixer reading of `0xFFFFFFFF` and a scroll up as the first event: the level drops to
`0xF0000000`. -/
theorem scroll_up_lowers_top_reading :
    (init 0xFFFFFFFF).run [] = .ok (init 0xFFFFFFFF) ∧
    (init 0xFFFFFFFF).mouseAction ⟨0, 0, 0, MouseButton.SCROLL_UP, 1⟩ =
      .ok (⟨0xF0000000, false, 0, some 0xF0000000⟩, true) ∧
    (0xF0000000 : Int) < (init 0xFFFFFFFF).volume :=
  ⟨rfl, rfl, by decide⟩

/-- From every mixer reading and after every run of events, a click that finds the widget muted
sets the level, and writes to the mixer, the level the widget had just before the most recent
click of the run, which is the click that muted it, whatever scrolls came between. -/
theorem unmute_restores_level_before_mute {reading : UInt32} {msgs : List WindowMouseEvent}
    {w : VolumeWidget} (hrun : (init reading).run msgs = .ok w) (hmuted : w.muted = true)
    {click : WindowMouseEvent} (hclick : click.command = MouseEvent.CLICK) :
    ∃ pre c post w₀, msgs = pre ++ c :: post ∧ c.command = MouseEvent.CLICK ∧
      (∀ m ∈ post, m.command ≠ MouseEvent.CLICK) ∧ (init reading).run pre = .ok w₀ ∧
      w₀.muted = false ∧
      ∃ w' redraw, w.mouseAction click = .ok (w', redraw) ∧ w'.muted = false ∧
        w'.volume = w₀.volume ∧ w'.lastSet = some w₀.volume := by
  obtain ⟨pre, c, post, w₀, hmsgs, hc, hpost, h₀, hm₀, hprev⟩ := run_mutedBy reading hrun hmuted
  refine ⟨pre, c, post, w₀, hmsgs, hc, hpost, h₀, hm₀, ?_⟩
  obtain ⟨w', r, hm, -, -⟩ := mouseAction_spec (run_init_bounded hrun) click
  rcases mouseAction_cases hm with ⟨-, -, rfl⟩ | ⟨-, hm', -⟩ | ⟨hc', -⟩ | ⟨hc', -⟩ | ⟨hc', -⟩
  · exact ⟨_, r, hm, rfl, hprev, by rw [hprev]⟩
  · exact absurd (hm'.symm.trans hmuted) Bool.false_ne_true
  all_goals exact absurd hclick hc'

/-- One click from a reading of `5` mutes; the next click restores `5`. -/
theorem unmute_restores_level_before_mute_oneClick :
    (init 5).run [⟨0, 0, 0, 0, MouseEvent.CLICK⟩] = .ok ⟨0, true, 5, some 0⟩ ∧
    (⟨0, true, 5, some 0⟩ : VolumeWidget).muted = true ∧
    (⟨0, 0, 0, 0, MouseEvent.CLICK⟩ : WindowMouseEvent).command = MouseEvent.CLICK ∧
    ∃ pre c post w₀, [(⟨0, 0, 0, 0, MouseEvent.CLICK⟩ : WindowMouseEvent)] = pre ++ c :: post ∧
      c.command = MouseEvent.CLICK ∧ (∀ m ∈ post, m.command ≠ MouseEvent.CLICK) ∧
      (init 5).run pre = .ok w₀ ∧ w₀.muted = false ∧
      ∃ w' redraw, (⟨0, true, 5, some 0⟩ : VolumeWidget).mouseAction ⟨0, 0, 0, 0, MouseEvent.CLICK⟩ =
        .ok (w', redraw) ∧ w'.muted = false ∧ w'.volume = w₀.volume ∧ w'.lastSet = some w₀.volume :=
  have hrun : (init 5).run [⟨0, 0, 0, 0, MouseEvent.CLICK⟩] = .ok ⟨0, true, 5, some 0⟩ := rfl
  ⟨hrun, rfl, rfl, unmute_restores_level_before_mute hrun rfl rfl⟩

end VolumeWidget

end ToaruPanel
