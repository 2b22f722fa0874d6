import ToaruPanel.Basic

/-!
# The application runner

`Alt+F2` opens `ApplicationRunnerWindow`, a one-line prompt that completes the typed
command from the executables on the search path.  A Python `str` is its list of code
points, and Python orders strings by code point, which is the lexicographic order Mathlib
puts on `List Char`; `sorted(self.bins)` is therefore `insertionSort (· ≤ ·)`.

`try_complete` scans the sorted names and stops at the first that starts with the typed
text, so the suggestion it keeps is the least such name (`tryComplete_inv`).
`key_action` either leaves the text alone, clears the suggestion (`DEL`), closes the
prompt (escape, enter), or edits the text and completes again.  `CompletionInv` is the
invariant of the open prompt: no suggestion, or the typed text followed by the suggestion
is the least matching name.  Every state reachable from the opened prompt satisfies it
(`Reachable.completionInv`).

*The text.*  `editText` is the prompt's text as a line editor sees it: a typed character is
appended, a backspace deletes the last character, and no other key changes it.
`keyAction_text` says once what `key_action` does in those terms: escape or enter closes the
prompt, enter with text typed launching the text and its suggestion; every other key keeps
the prompt open, launches nothing, and edits the text as `editText` does.
-/

namespace ToaruPanel

/-- The state of the application runner prompt. -/
structure ApplicationRunnerWindow where
  /-- The prompt's window. -/
  wid : Nat
  /-- The typed text. -/
  data : List Char
  /-- The suggested rest of the command. -/
  complete : List Char
  /-- Whether the last completion found a name. -/
  completed : Bool
  /-- The names found in the directories of `PATH`. -/
  bins : List (List Char)
deriving DecidableEq, Repr

namespace ApplicationRunnerWindow

/-- `__init__`: an empty prompt over the executables found on the search path. -/
def init (wid : Nat) (bins : List (List Char)) : ApplicationRunnerWindow :=
  ⟨wid, [], [], false, bins⟩

/-- `try_complete`: complete the typed text to the first sorted name it starts. -/
def tryComplete (r : ApplicationRunnerWindow) : ApplicationRunnerWindow :=
  if r.data = [] then { r with complete := [], completed := false }
  else
    match (r.bins.insertionSort (· ≤ ·)).find? (fun b => r.data.isPrefixOf b) with
    | some b => { r with complete := b.drop r.data.length, completed := true }
    | none => { r with completed := false, complete := [] }

/-- `msg.event.key.decode('utf-8')` of one byte. -/
def decodeKey (key : UInt8) : Except String Char :=
  if key.toNat < 0x80 then .ok (Char.ofNat key.toNat)
  else .error "UnicodeDecodeError: 'utf-8' codec can't decode byte"

/-- `key_action`: the prompt afterwards (`none` once it closed) and what it launched. -/
def keyAction (r : ApplicationRunnerWindow) (msg : KeyEvent) :
    Except String (Option ApplicationRunnerWindow × List Effect) :=
  if msg.action ≠ KeyAction.ACTION_DOWN then .ok (some r, [])
  else if msg.keycode = Keycode.ESCAPE then .ok (none, [])
  else if msg.keycode = Keycode.DEL then .ok (some { r with complete := [], completed := false }, [])
  else if msg.key = 0 then .ok (some r, [])
  else if msg.key = 10 then
    .ok (none, if r.data = [] then []
      else [.launchApp (r.data ++ r.complete) (hasBit msg.modifiers Modifier.MOD_LEFT_SHIFT)])
  else if msg.key = 8 then
    .ok (some (if r.data = [] then r else tryComplete { r with data := r.data.dropLast }), [])
  else do
    let c ← decodeKey msg.key
    pure (some (tryComplete { r with data := r.data ++ [c] }), [])

/-- The names of `bins` that start with the typed text. -/
def matchingNames (bins : List (List Char)) (data : List Char) : Set (List Char) :=
  {b | b ∈ bins ∧ data <+: b}

/-- No suggestion, or the typed text and the suggestion spell the least matching name. -/
def CompletionInv (r : ApplicationRunnerWindow) : Prop :=
  (r.completed = false ∧ r.complete = []) ∨
    (r.data ≠ [] ∧ IsLeast (matchingNames r.bins r.data) (r.data ++ r.complete))

/-- The prompts reachable from an opened one by key events that leave it open. -/
inductive Reachable : ApplicationRunnerWindow → Prop
  | init (wid : Nat) (bins : List (List Char)) : Reachable (init wid bins)
  | step {r r' : ApplicationRunnerWindow} {msg : KeyEvent} {effects : List Effect} :
      Reachable r → r.keyAction msg = .ok (some r', effects) → Reachable r'

end ApplicationRunnerWindow

/-- A press `key_action` types into the prompt. -/
def KeyEvent.TypesChar (msg : KeyEvent) : Prop :=
  msg.action = KeyAction.ACTION_DOWN ∧ msg.keycode ≠ Keycode.ESCAPE ∧ msg.keycode ≠ Keycode.DEL ∧
    msg.key ≠ 0 ∧ msg.key ≠ 10 ∧ msg.key ≠ 8

/-- A backspace press. -/
def KeyEvent.IsBackspace (msg : KeyEvent) : Prop :=
  msg.action = KeyAction.ACTION_DOWN ∧ msg.keycode ≠ Keycode.ESCAPE ∧ msg.keycode ≠ Keycode.DEL ∧
    msg.key = 8

/-! ## The first match of a sorted list is the least -/

theorem find?_sorted_isLeast {l : List (List Char)} (hl : l.Sorted (· ≤ ·))
    {p : List Char → Bool} {b : List Char} (h : l.find? p = some b) :
    IsLeast {x | x ∈ l ∧ p x} b := by
  induction l with
  | nil => simp at h
  | cons a l ih =>
    rw [List.sorted_cons] at hl
    by_cases ha : p a
    · rw [List.find?_cons_of_pos _ ha, Option.some.injEq] at h
      subst h
      refine ⟨⟨List.mem_cons_self _ _, ha⟩, fun (x : List Char) ⟨hx, _⟩ => ?_⟩
      rcases List.mem_cons.mp hx with rfl | hx
      · exact le_refl x
      · exact hl.1 x hx
    · rw [List.find?_cons_of_neg _ ha] at h
      obtain ⟨⟨hb, hpb⟩, hleast⟩ := ih hl.2 h
      refine ⟨⟨List.mem_cons_of_mem _ hb, hpb⟩, fun x ⟨hx, hpx⟩ => ?_⟩
      rcases List.mem_cons.mp hx with rfl | hx
      · exact absurd hpx ha
      · exact hleast ⟨hx, hpx⟩

theorem find?_eq_none_matches {l : List (List Char)} {data : List Char}
    (h : l.find? (fun b => data.isPrefixOf b) = none) : ∀ b ∈ l, ¬ data <+: b := by
  intro b hb hpre
  have := List.find?_eq_none.mp h b hb
  simp [List.isPrefixOf_iff_prefix.mpr hpre] at this

namespace ApplicationRunnerWindow

/-- `try_complete` leaves either no suggestion or the least matching name. -/
theorem tryComplete_inv (r : ApplicationRunnerWindow) : (tryComplete r).CompletionInv := by
  unfold tryComplete
  split
  · exact Or.inl ⟨rfl, rfl⟩
  · next hdata =>
    split
    · next b hfind =>
      refine Or.inr ⟨hdata, ?_⟩
      have hb := List.find?_some hfind
      rw [List.isPrefixOf_iff_prefix] at hb
      have hleast := find?_sorted_isLeast (List.sorted_insertionSort _ _) hfind
      have hperm := List.perm_insertionSort (· ≤ ·) r.bins
      simp only [List.prefix_iff_eq_append.mp hb]
      refine ⟨⟨hperm.mem_iff.mp hleast.1.1, hb⟩, fun x ⟨hx, hpx⟩ => hleast.2 ?_⟩
      exact ⟨hperm.mem_iff.mpr hx, List.isPrefixOf_iff_prefix.mpr hpx⟩
    · exact Or.inl ⟨rfl, rfl⟩

/-- After `try_complete`, a completion was found exactly when the text is non-empty and
some name starts with it. -/
theorem tryComplete_completed (r : ApplicationRunnerWindow) :
    (tryComplete r).completed = true ↔ r.data ≠ [] ∧ ∃ b ∈ r.bins, r.data <+: b := by
  unfold tryComplete
  split
  · next hdata => simp [hdata]
  · next hdata =>
    have hperm := List.perm_insertionSort (· ≤ ·) r.bins
    split
    · next b hfind =>
      have hb := List.find?_some hfind
      exact iff_of_true rfl ⟨hdata, b, hperm.mem_iff.mp (List.mem_of_find?_eq_some hfind),
        List.isPrefixOf_iff_prefix.mp hb⟩
    · next hfind =>
      simp only [Bool.false_eq_true, false_iff, not_and, not_exists]
      exact fun _ b hb => find?_eq_none_matches hfind b (hperm.mem_iff.mpr hb)

@[simp] theorem tryComplete_data (r : ApplicationRunnerWindow) : (tryComplete r).data = r.data := by
  unfold tryComplete; split <;> [rfl; split <;> rfl]

@[simp] theorem tryComplete_bins (r : ApplicationRunnerWindow) : (tryComplete r).bins = r.bins := by
  unfold tryComplete; split <;> [rfl; split <;> rfl]

/-- What `key_action` can do: keep the prompt, close it, clear the suggestion, complete
again after editing the text, or raise on a key it cannot decode. -/
theorem keyAction_spec (r : ApplicationRunnerWindow) (msg : KeyEvent) :
    r.keyAction msg = .ok (some r, []) ∨ (∃ effects, r.keyAction msg = .ok (none, effects)) ∨
    r.keyAction msg = .ok (some { r with complete := [], completed := false }, []) ∨
    (∃ data, r.keyAction msg = .ok (some (tryComplete { r with data := data }), [])) ∨
    r.keyAction msg = .error "UnicodeDecodeError: 'utf-8' codec can't decode byte" := by
  unfold keyAction
  by_cases h₁ : msg.action ≠ KeyAction.ACTION_DOWN
  · exact .inl (if_pos h₁)
  rw [if_neg h₁]
  by_cases h₂ : msg.keycode = Keycode.ESCAPE
  · exact .inr (.inl ⟨_, if_pos h₂⟩)
  rw [if_neg h₂]
  by_cases h₃ : msg.keycode = Keycode.DEL
  · exact .inr (.inr (.inl (if_pos h₃)))
  rw [if_neg h₃]
  by_cases h₄ : msg.key = 0
  · exact .inl (if_pos h₄)
  rw [if_neg h₄]
  by_cases h₅ : msg.key = 10
  · exact .inr (.inl ⟨_, if_pos h₅⟩)
  rw [if_neg h₅]
  by_cases h₆ : msg.key = 8
  · rw [if_pos h₆]
    by_cases hd : r.data = []
    · exact .inl (by rw [if_pos hd])
    · exact .inr (.inr (.inr (.inl ⟨_, by rw [if_neg hd]⟩)))
  rw [if_neg h₆]
  unfold decodeKey
  by_cases h₇ : msg.key.toNat < 0x80
  · exact .inr (.inr (.inr (.inl ⟨_, by rw [if_pos h₇]; rfl⟩)))
  · exact .inr (.inr (.inr (.inr (by rw [if_neg h₇]; rfl))))

/-- What one key event can do to a prompt it leaves open: nothing, clear the suggestion,
or complete again after editing the text. -/
theorem keyAction_cases {r r' : ApplicationRunnerWindow} {msg : KeyEvent} {effects : List Effect}
    (h : r.keyAction msg = .ok (some r', effects)) :
    r' = r ∨ r' = { r with complete := [], completed := false } ∨
      ∃ data, r' = tryComplete { r with data := data } := by
  rcases keyAction_spec r msg with h' | ⟨e, h'⟩ | h' | ⟨data, h'⟩ | h' <;> rw [h'] at h <;> cases h
  · exact Or.inl rfl
  · exact Or.inr (Or.inl rfl)
  · exact Or.inr (Or.inr ⟨data, rfl⟩)

theorem keyAction_completionInv {r r' : ApplicationRunnerWindow} {msg : KeyEvent}
    {effects : List Effect} (hr : r.CompletionInv) (h : r.keyAction msg = .ok (some r', effects)) :
    r'.CompletionInv := by
  rcases keyAction_cases h with rfl | rfl | ⟨data, rfl⟩
  · exact hr
  · exact Or.inl ⟨rfl, rfl⟩
  · exact tryComplete_inv _

theorem Reachable.completionInv {r : ApplicationRunnerWindow} (h : r.Reachable) :
    r.CompletionInv := by
  induction h with
  | init => exact Or.inl ⟨rfl, rfl⟩
  | step _ hstep ih => exact keyAction_completionInv ih hstep

/-- A typed character and a backspace on non-empty text both end in `try_complete`. -/
theorem keyAction_edit {r r' : ApplicationRunnerWindow} {msg : KeyEvent} {effects : List Effect}
    (hk : msg.TypesChar ∨ (msg.IsBackspace ∧ r.data ≠ []))
    (h : r.keyAction msg = .ok (some r', effects)) :
    ∃ data, r' = tryComplete { r with data := data } := by
  rcases hk with ⟨hd, he, hdel, h0, h10, h8⟩ | ⟨⟨hd, he, hdel, h8⟩, hne⟩
  · simp only [keyAction, hd, he, hdel, h0, h10, h8, ne_eq, not_true_eq_false, if_false] at h
    cases hc : decodeKey msg.key <;> rw [hc] at h <;> cases h
    exact ⟨_, rfl⟩
  · simp only [keyAction, hd, he, hdel, h8, hne, ne_eq, not_true_eq_false, if_false,
      if_true] at h
    cases h
    exact ⟨_, rfl⟩

end ApplicationRunnerWindow

/-- Every prompt reachable from an opened one, over any names on the search path and any
key events, has no suggestion or suggests the rest of the least name (in code-point order)
that starts with the typed text.  Right after a typed character, or a backspace on
non-empty text, a completion is marked found exactly when the text is non-empty and some
name starts with it. -/
theorem runner_completion_least_match :
    (∀ r : ApplicationRunnerWindow, r.Reachable → r.CompletionInv) ∧
    (∀ (r r' : ApplicationRunnerWindow) (msg : KeyEvent) (effects : List Effect),
      (msg.TypesChar ∨ (msg.IsBackspace ∧ r.data ≠ [])) →
      r.keyAction msg = .ok (some r', effects) →
      (r'.completed = true ↔ r'.data ≠ [] ∧ ∃ b ∈ r'.bins, r'.data <+: b)) := by
  refine ⟨fun r hr => hr.completionInv, fun r r' msg effects hk h => ?_⟩
  obtain ⟨data, rfl⟩ := ApplicationRunnerWindow.keyAction_edit hk h
  simpa using ApplicationRunnerWindow.tryComplete_completed { r with data := data }

/-! ## The text as a line editor -/

instance (msg : KeyEvent) : Decidable msg.TypesChar :=
  inferInstanceAs (Decidable (_ ∧ _ ∧ _ ∧ _ ∧ _ ∧ _))

instance (msg : KeyEvent) : Decidable msg.IsBackspace :=
  inferInstanceAs (Decidable (_ ∧ _ ∧ _ ∧ _))

/-- A press that closes the prompt: escape, or enter on a key other than `DEL`. -/
def KeyEvent.ClosesPrompt (msg : KeyEvent) : Prop :=
  msg.action = KeyAction.ACTION_DOWN ∧
    (msg.keycode = Keycode.ESCAPE ∨ (msg.keycode ≠ Keycode.DEL ∧ msg.key = 10))

instance (msg : KeyEvent) : Decidable msg.ClosesPrompt := inferInstanceAs (Decidable (_ ∧ _))

namespace ApplicationRunnerWindow

/-- The prompt as a line editor: a key that types a character appends it, a backspace
deletes the last character, and every other key leaves the text alone. -/
def editText (text : List Char) (msg : KeyEvent) : List Char :=
  if msg.TypesChar then text ++ [Char.ofNat msg.key.toNat]
  else if msg.IsBackspace then text.dropLast
  else text

@[simp] theorem tryComplete_wid (r : ApplicationRunnerWindow) : (tryComplete r).wid = r.wid := by
  unfold tryComplete; split
  · rfl
  · split <;> rfl

/-- What `key_action` does, in the line editor's terms.  Escape or enter closes the prompt,
and enter with text typed launches the text and its suggestion, in a terminal when Shift is
held.  Every other key keeps the prompt open in the same window over the same names,
launches nothing, and edits the text as `editText` does. -/
theorem keyAction_text {r : ApplicationRunnerWindow} {msg : KeyEvent}
    {r' : Option ApplicationRunnerWindow} {effects : List Effect}
    (h : r.keyAction msg = .ok (r', effects)) :
    (r' = none ∧ msg.ClosesPrompt ∧
      (effects = [] ∨ (msg.key = 10 ∧ r.data ≠ [] ∧
        effects = [.launchApp (r.data ++ r.complete) (hasBit msg.modifiers Modifier.MOD_LEFT_SHIFT)]))) ∨
    (effects = [] ∧ ∃ r'', r' = some r'' ∧ r''.wid = r.wid ∧ r''.bins = r.bins ∧
      r''.data = editText r.data msg) := by
  unfold keyAction at h
  by_cases h₁ : msg.action ≠ KeyAction.ACTION_DOWN
  · rw [if_pos h₁] at h; cases h
    exact .inr ⟨rfl, r, rfl, rfl, rfl, by simp [editText, KeyEvent.TypesChar, KeyEvent.IsBackspace, h₁]⟩
  rw [if_neg h₁] at h
  rw [not_not] at h₁
  by_cases h₂ : msg.keycode = Keycode.ESCAPE
  · rw [if_pos h₂] at h; cases h
    exact .inl ⟨rfl, ⟨h₁, .inl h₂⟩, .inl rfl⟩
  rw [if_neg h₂] at h
  by_cases h₃ : msg.keycode = Keycode.DEL
  · rw [if_pos h₃] at h; cases h
    exact .inr ⟨rfl, _, rfl, rfl, rfl,
      by simp [editText, KeyEvent.TypesChar, KeyEvent.IsBackspace, h₃]⟩
  rw [if_neg h₃] at h
  by_cases h₄ : msg.key = 0
  · rw [if_pos h₄] at h; cases h
    exact .inr ⟨rfl, r, rfl, rfl, rfl, by simp [editText, KeyEvent.TypesChar, KeyEvent.IsBackspace, h₄]⟩
  rw [if_neg h₄] at h
  by_cases h₅ : msg.key = 10
  · rw [if_pos h₅] at h; cases h
    refine .inl ⟨rfl, ⟨h₁, .inr ⟨h₃, h₅⟩⟩, ?_⟩
    by_cases hd : r.data = []
    · exact .inl (if_pos hd)
    · exact .inr ⟨h₅, hd, if_neg hd⟩
  rw [if_neg h₅] at h
  by_cases h₆ : msg.key = 8
  · rw [if_pos h₆] at h; cases h
    have hb : msg.IsBackspace := ⟨h₁, h₂, h₃, h₆⟩
    have ht : ¬msg.TypesChar := fun ht => ht.2.2.2.2.2 h₆
    refine .inr ⟨rfl, _, rfl, ?_⟩
    split
    · next hd => exact ⟨rfl, rfl, by rw [editText, if_neg ht, if_pos hb, hd]; rfl⟩
    · exact ⟨tryComplete_wid _, tryComplete_bins _, by rw [editText, if_neg ht, if_pos hb]; simp⟩
  rw [if_neg h₆] at h
  have ht : msg.TypesChar := ⟨h₁, h₂, h₃, h₄, h₅, h₆⟩
  unfold decodeKey at h
  split at h
  · cases h
    exact .inr ⟨rfl, _, rfl, tryComplete_wid _, tryComplete_bins _,
      by rw [editText, if_pos ht]; simp⟩
  · cases h

end ApplicationRunnerWindow

end ToaruPanel
