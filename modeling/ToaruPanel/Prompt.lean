import ToaruPanel.Launch

/-!
# The runner's text is what was typed

`key_action` keeps the prompt's text in `self.data` and changes it in two places only: a
key that decodes to a character is appended, and a backspace deletes the last character.
The other keys move the suggestion (`DEL`, the completions after an edit) or close the
prompt (escape, enter).

The runner's module states the text's part as a line editor, one key at a time, with no
suggestion in it (`editText`), and shows that `key_action` refines it (`keyAction_text`): a
key that leaves the prompt open edits the text as `editText` does, in the same window and
over the same names, and a key that closes it is escape or enter.  The loop hands the runner exactly the key events
addressed to its window (`Message.keyFor`), and nothing else touches it
(`dispatch_runner_text`).  So along every run that keeps the session running and sends the
runner no escape or enter, the runner stays open and its text is the line editor run over
those keys (`mainLoop_runner_text`).  From Alt+F2 on, what Enter launches is therefore
the typed text or the least name on the search path that starts with it
(`runner_launches_typed_text`).
-/

namespace ToaruPanel

/-- The key event a message hands the window `wid`, if it is one. -/
def Message.keyFor (wid : Nat) : Message → Option KeyEvent
  | .keyEvent ev => if ev.wid = wid then some ev else none
  | _ => none

/-- The key events of `msgs` addressed to the window `wid`, in order. -/
def keysTo (wid : Nat) (msgs : List Message) : List KeyEvent := msgs.filterMap (Message.keyFor wid)

namespace Session

open ApplicationRunnerWindow

/-! ## One message -/

/-- Alt+F2 opens a runner only when none is open. -/
theorem openRunner_appRunner {env : Env} {ev : KeyEvent} {s s₁ : Session}
    {r : ApplicationRunnerWindow} (hr : s.appRunner = some r) (h : s.openRunner env ev = .ok s₁) :
    s₁.appRunner = some r := by
  rcases openRunner_cases h with rfl | ⟨hn, -⟩
  · exact hr
  · cases hr.symm.trans hn

/-- Alt+F2 with no runner open scans the search path and opens an empty runner over what it
read. -/
theorem openRunner_of_altF2 {env : Env} {ev : KeyEvent} {s : Session} (hnone : s.appRunner = none)
    (hf2 : ev.IsAltF2Down) :
    s.openRunner env ev =
      (fun bins => { s with appRunner := some (.init env.newWid bins) }) <$> env.bins :=
  if_pos ⟨by simp [hnone], hf2⟩

/-- A message keeps an open runner open unless it hands it escape or enter, and edits its
text with the key it hands it, if any. -/
theorem dispatch_runner_text {env : Env} {s s' : Session} {msg : Message} {effects : List Effect}
    {r : ApplicationRunnerWindow} (hr : s.appRunner = some r)
    (h : s.dispatch env msg = .ok (s', effects))
    (hopen : ∀ ev, msg.keyFor r.wid = some ev → ¬ev.ClosesPrompt) :
    ∃ r', s'.appRunner = some r' ∧ r'.wid = r.wid ∧ r'.bins = r.bins ∧
      r'.data = (msg.keyFor r.wid).toList.foldl editText r.data := by
  cases msg with
  | keyEvent ev =>
    rcases keyEvent_runner_cases h with ⟨r₁, r', hr₁, hwid, hk, rfl⟩ | ⟨hnot, hb⟩
    · cases hr.symm.trans hr₁
      have hkey : (Message.keyEvent ev).keyFor r.wid = some ev := if_pos hwid
      rcases keyAction_text hk with ⟨-, hc, -⟩ | ⟨-, r'', rfl, hw, hbins, hd⟩
      · exact absurd hc (hopen ev hkey)
      · exact ⟨r'', rfl, hw, hbins, by rw [hkey]; exact hd⟩
    · have hkey : (Message.keyEvent ev).keyFor r.wid = none := if_neg (hnot r hr)
      obtain ⟨-, ⟨s₁, ho, ha⟩, -⟩ := bindings_frame hb
      exact ⟨r, ha.trans (openRunner_appRunner hr ho), rfl, rfl, by rw [hkey]; rfl⟩
  | _ =>
    rcases (dispatch_frame h).2 with he | ⟨ev, r₀, hm, -⟩ | ⟨hn, -⟩
    · exact ⟨r, he.trans hr, rfl, rfl, rfl⟩
    · cases hm
    · cases hr.symm.trans hn

/-- Alt+F2 with no runner open opens an empty one in the next window, over the names the scan
of the search path read. -/
theorem dispatch_opens_runner {env : Env} {s s' : Session} {ev : KeyEvent} {effects : List Effect}
    (hnone : s.appRunner = none)
    (hf2 : hasBit ev.modifiers Modifier.MOD_LEFT_ALT ∧ ev.keycode = Keycode.F2 ∧
      ev.action = KeyAction.ACTION_DOWN)
    (h : s.dispatch env (.keyEvent ev) = .ok (s', effects)) :
    ∃ bins, env.bins = .ok bins ∧ s'.appRunner = some (.init env.newWid bins) := by
  rcases keyEvent_runner_cases h with ⟨r, -, hr, -⟩ | ⟨-, hb⟩
  · cases hnone.symm.trans hr
  · obtain ⟨-, ⟨s₁, ho, ha⟩, -⟩ := bindings_frame hb
    rw [openRunner_of_altF2 hnone hf2] at ho
    obtain ⟨bins, hbins, rfl⟩ := map_eq_ok.mp ho
    exact ⟨bins, hbins, ha⟩

/-! ## A run -/

/-- Along every run of the loop that keeps the session running and hands an open runner no
escape or enter, the runner stays open in the same window over the same names, and its text
is the line editor run over the key events addressed to it. -/
theorem mainLoop_runner_text :
    ∀ {s s' : Session} {msgs : List (Env × Message)} {effects : List Effect}
      {r : ApplicationRunnerWindow},
      s.appRunner = some r → s.mainLoop msgs = .ok (s', effects) → s'.running = true →
      (∀ ev ∈ keysTo r.wid (msgs.map Prod.snd), ¬ev.ClosesPrompt) →
      ∃ r', s'.appRunner = some r' ∧ r'.wid = r.wid ∧ r'.bins = r.bins ∧
        r'.data = (keysTo r.wid (msgs.map Prod.snd)).foldl editText r.data
  | s, s', [], effects, r, hr, h, _, _ => by cases h; exact ⟨r, hr, rfl, rfl, rfl⟩
  | s, s', (env, msg) :: msgs, effects, r, hr, h, hrun, hopen => by
    rcases mainLoop_cons_cases h with ⟨hoff, rfl, -⟩ | ⟨s₁, e₁, e₂, -, h₁, h₂, -⟩
    · cases hrun.symm.trans hoff
    have hkeys : keysTo r.wid (((env, msg) :: msgs).map Prod.snd) =
        (msg.keyFor r.wid).toList ++ keysTo r.wid (msgs.map Prod.snd) := by
      cases hk : msg.keyFor r.wid <;> simp [keysTo, List.filterMap_cons, hk]
    rw [hkeys] at hopen ⊢
    obtain ⟨r₁, hr₁, hw₁, hb₁, hd₁⟩ := dispatch_runner_text hr h₁
      fun ev hev => hopen ev (List.mem_append_left _ (Option.mem_toList.mpr hev))
    obtain ⟨r', hr', hw', hb', hd'⟩ := mainLoop_runner_text hr₁ h₂ hrun
      fun ev hev => hopen ev (List.mem_append_right _ (hw₁ ▸ hev))
    exact ⟨r', hr', hw'.trans hw₁, hb'.trans hb₁, by rw [hd', hd₁, hw₁, List.foldl_append]⟩

/-- The text the line editor holds after the key events of `msgs` addressed to `wid`, from
an empty prompt. -/
def typedText (wid : Nat) (msgs : List Message) : List Char := (keysTo wid msgs).foldl editText []

/-- What Enter in the runner launches is what was typed since Alt+F2.  From a reachable state
with no runner open, Alt+F2 and then a run of the loop that keeps the session running and
hands the runner no escape or enter: the scan of the search path read its names, the runner
is open and holds the typed text, and Enter launches that text when it is not empty, or the
least name on the search path that starts with it, in a terminal when Shift is held. -/
theorem runner_launches_typed_text {env₀ env : Env} {s s₁ s' : Session} {f2 enter : KeyEvent}
    {typing : List (Env × Message)} {effects effects' : List Effect} (hs : s.Reachable)
    (hnone : s.appRunner = none)
    (hf2 : hasBit f2.modifiers Modifier.MOD_LEFT_ALT ∧ f2.keycode = Keycode.F2 ∧
      f2.action = KeyAction.ACTION_DOWN)
    (hrun : s.mainLoop ((env₀, .keyEvent f2) :: typing) = .ok (s₁, effects))
    (hrunning : s₁.running = true)
    (hopen : ∀ ev ∈ keysTo env₀.newWid (typing.map Prod.snd), ¬ev.ClosesPrompt)
    (henter : enter.wid = env₀.newWid) (h : s₁.dispatch env (.keyEvent enter) = .ok (s', effects')) :
    ∃ bins, env₀.bins = .ok bins ∧
      (∃ r, s₁.appRunner = some r ∧ r.data = typedText env₀.newWid (typing.map Prod.snd)) ∧
      ∀ item terminal, Effect.launchApp item terminal ∈ effects' →
        typedText env₀.newWid (typing.map Prod.snd) ≠ [] ∧
        terminal = hasBit enter.modifiers Modifier.MOD_LEFT_SHIFT ∧
        (item = typedText env₀.newWid (typing.map Prod.snd) ∨
          IsLeast (matchingNames bins (typedText env₀.newWid (typing.map Prod.snd))) item) := by
  rcases mainLoop_cons_cases hrun with ⟨hoff, rfl, -⟩ | ⟨s₀, e₁, e₂, -, h₀, h₂, -⟩
  · cases hrunning.symm.trans hoff
  obtain ⟨bins, hbins, hopened⟩ := dispatch_opens_runner hnone hf2 h₀
  obtain ⟨r, hr, hw, hb, hd⟩ := mainLoop_runner_text hopened h₂ hrunning hopen
  replace hd : r.data = typedText env₀.newWid (typing.map Prod.snd) := hd
  replace hb : r.bins = bins := hb
  refine ⟨bins, hbins, ⟨r, hr, hd⟩, fun item terminal hl => ?_⟩
  have hs₁ : s₁.Reachable := (Reachable.step hs h₀).mainLoop h₂
  rcases keyEvent_runner_cases h with ⟨r₁, r', hr₁, -, hk, -⟩ | ⟨hnot, -⟩
  · cases hr.symm.trans hr₁
    rcases keyAction_effects hk with rfl | ⟨-, hdata, -, rfl⟩
    · cases hl
    · rw [List.mem_singleton, Effect.launchApp.injEq] at hl
      obtain ⟨rfl, rfl⟩ := hl
      rw [← hd, ← hb]
      refine ⟨hdata, rfl, ?_⟩
      rcases (hs₁.runnerReachable r hr).completionInv with ⟨-, hc⟩ | ⟨-, hleast⟩
      · exact .inl (by rw [hc, List.append_nil])
      · exact .inr hleast
  · exact absurd (henter.trans hw.symm) (hnot r hr)

/-- Alt+F2, pressed over the panel. -/
def altF2Key : KeyEvent := ⟨0, Keycode.F2, 0, Modifier.MOD_LEFT_ALT, KeyAction.ACTION_DOWN⟩

/-- Enter, typed into the runner of window 9. -/
def enterKey : KeyEvent := ⟨9, 10, 10, 0, KeyAction.ACTION_DOWN⟩

/-- `l`, `s` and a backspace typed into the runner of window 9, with a key release, a key for
another window and a clock tick between them. -/
def backspaceRun : List Message :=
  [.keyEvent ⟨9, 108, 108, 0, KeyAction.ACTION_DOWN⟩, .keyEvent ⟨9, 115, 115, 0, KeyAction.ACTION_DOWN⟩,
    .keyEvent ⟨9, 115, 115, 0, KeyAction.ACTION_UP⟩, .keyEvent ⟨0, 120, 120, 0, KeyAction.ACTION_DOWN⟩,
    .timerTick 0 0 0, .keyEvent ⟨9, 8, 8, 0, KeyAction.ACTION_DOWN⟩]

/-- The search path of the example: `lua` and `ls`. -/
def luaLsEnv : Env := ⟨false, 9, .ok ["lua".toList, "ls".toList]⟩

/-- Typing `l`, `s`, a backspace and Enter launches `ls`, the least name that starts
with `l`. -/
theorem runner_launches_typed_text_ls :
    ∃ s₁ effects s' effects',
      twoWindows.mainLoop ((luaLsEnv, .keyEvent altF2Key) :: backspaceRun.map (luaLsEnv, ·)) =
        .ok (s₁, effects) ∧
      s₁.dispatch luaLsEnv (.keyEvent enterKey) = .ok (s', effects') ∧
      effects' = [.launchApp "ls".toList false] ∧
      typedText 9 ((backspaceRun.map (luaLsEnv, ·)).map Prod.snd) = "l".toList ∧
      ∃ bins, luaLsEnv.bins = .ok bins ∧
      (∃ r, s₁.appRunner = some r ∧ r.data = typedText 9 ((backspaceRun.map (luaLsEnv, ·)).map Prod.snd)) ∧
      ∀ item terminal, Effect.launchApp item terminal ∈ effects' →
        typedText 9 ((backspaceRun.map (luaLsEnv, ·)).map Prod.snd) ≠ [] ∧
        terminal = hasBit enterKey.modifiers Modifier.MOD_LEFT_SHIFT ∧
        (item = typedText 9 ((backspaceRun.map (luaLsEnv, ·)).map Prod.snd) ∨
          IsLeast (matchingNames bins (typedText 9 ((backspaceRun.map (luaLsEnv, ·)).map Prod.snd)))
            item) :=
  ⟨_, _, _, _, rfl, rfl, rfl, rfl,
    @runner_launches_typed_text luaLsEnv luaLsEnv twoWindows _ _ altF2Key enterKey
      (backspaceRun.map (luaLsEnv, ·)) _ _ twoWindows_reachable rfl ⟨by decide, rfl, rfl⟩ rfl rfl
      (by decide) rfl rfl⟩

end Session

end ToaruPanel
