import Veriai.Runtime.LlamaCpp

/-!
# Which completions are extracted whole

What llama-cli may print around a completion, and the completions that
`extract_completion` gets back from every such output. Its searches run over
the completion too, so a completion that spells out one of the markers is cut.
-/

namespace Veriai.Runtime

/-- The text contains none of the markers of the user interface. -/
def Unmarked (text : List Char) : Prop :=
  ¬ promptMarker <:+: text ∧ ¬ blankLine <:+: text ∧ ¬ timingMarker <:+: text ∧
    ¬ exitMarker <:+: text

/-- What is printed before a completion when the prompt is echoed. -/
structure Echo where
  banner : List Char
  prompt : List Char
  banner_unmarked : Unmarked banner
  prompt_unmarked : Unmarked prompt

def Echo.text (echo : Echo) (behind : List Char) : List Char :=
  echo.banner ++ (promptMarker ++ (echo.prompt ++ (blankLine ++ behind)))

/-- What is printed behind a completion. -/
structure Ending where
  timing : Option (List Char)
  exiting : Bool
  timing_unmarked : ∀ text, timing = some text → Unmarked text

def Ending.text (ending : Ending) : List Char :=
  (match ending.timing with
    | some text => timingMarker ++ text
    | none => []) ++ (if ending.exiting then exitMarker else [])

/-- The output around a completion, with or without an echo of the prompt. -/
structure Wrapping where
  echo : Option Echo
  ending : Ending

def Wrapping.wrap (w : Wrapping) (completion : List Char) : List Char :=
  match w.echo with
  | some echo => echo.text (completion ++ w.ending.text)
  | none => completion ++ w.ending.text

/-- The text contains none of the three markers that are searched for. -/
structure Clean (text : List Char) : Prop where
  prompt : ¬ promptMarker <:+: text
  timing : ¬ timingMarker <:+: text
  exit : ¬ exitMarker <:+: text

/-- The rest of a clean text is clean. -/
theorem Clean.of_cons {c : Char} {text : List Char} (h : Clean (c :: text)) : Clean text :=
  ⟨fun hm => h.prompt (List.infix_cons hm), fun hm => h.timing (List.infix_cons hm),
    fun hm => h.exit (List.infix_cons hm)⟩

section Sufficient

variable {ending : Ending} {c : List Char}

/-- Nothing is cut where the marker does not occur. -/
theorem cutAt_absent {marker text : List Char} (h : ¬ marker <:+: text) :
    cutAt marker text = text := by
  rw [cutAt, Search.find_eq_none_iff.mpr h]

/-- A text is cut at the first marker behind it. -/
theorem cutAt_append {marker text : List Char} (hb : Search.Borderless marker)
    (h : ¬ marker <:+: text) (behind : List Char) :
    cutAt marker (text ++ (marker ++ behind)) = text := by
  rw [cutAt, Search.find_append h (List.prefix_append ..) (hb.append (by omega) behind)]
  exact List.take_left

/-- The ending is cut off a completion without its markers. -/
theorem cutAt_ending (htiming : ¬ timingMarker <:+: c) (hexit : ¬ exitMarker <:+: c) :
    cutAt exitMarker (cutAt timingMarker (c ++ ending.text)) = c := by
  have htimingB : Search.Borderless timingMarker := by decide
  have hexitB : Search.Borderless exitMarker := by decide
  unfold Ending.text
  split
  · rw [List.append_assoc, cutAt_append htimingB htiming, cutAt_absent hexit]
  · split
    · have hnone : ¬ timingMarker <:+: c ++ exitMarker :=
        Search.not_infix_append htiming (by decide) (by decide)
      rw [List.nil_append, cutAt_absent hnone]
      have hcut := cutAt_append hexitB hexit []
      rwa [List.append_nil] at hcut
    · rw [List.nil_append, List.append_nil, cutAt_absent htiming, cutAt_absent hexit]

/-- The ending neither contains the prompt marker nor completes one. -/
theorem not_infix_append_ending (hc : ¬ promptMarker <:+: c) :
    ¬ promptMarker <:+: c ++ ending.text := by
  have hexiting : ¬ promptMarker <:+: (if ending.exiting then exitMarker else []) ∧
      Search.Apart promptMarker (if ending.exiting then exitMarker else []) := by
    cases ending.exiting <;> decide
  unfold Ending.text
  split
  · rename_i text htext
    have htail := Search.not_infix_append (ending.timing_unmarked text htext).1 hexiting.1
      hexiting.2
    have hapart : Search.Apart promptMarker timingMarker := by decide
    rw [List.append_assoc]
    refine Search.not_infix_append hc ?_ (hapart.append (by decide) _)
    exact Search.not_infix_append_left (by decide) htail (by decide)
  · rw [List.nil_append]
    exact Search.not_infix_append hc hexiting.1 hexiting.2

/-- Nothing is skipped where the prompt marker does not occur. -/
theorem skipPrompt_absent {text : List Char} (h : ¬ promptMarker <:+: text) :
    skipPrompt text = text := by
  rw [skipPrompt, Search.rfind_eq_none_iff.mpr h]

/-- Without an echo, a clean completion is extracted. -/
theorem extractCompletion_ending (hc : Clean c) :
    extractCompletion (c ++ ending.text) = trim c := by
  rw [extractCompletion, skipPrompt_absent (not_infix_append_ending hc.prompt),
    cutAt_ending hc.timing hc.exit]

/-- Behind the echo stands the completion, or a line feed of the prompt and the completion. -/
theorem skipPrompt_echo (echo : Echo) (hc : ¬ promptMarker <:+: '\n' :: c) :
    skipPrompt (echo.text (c ++ ending.text)) = c ++ ending.text ∨
      skipPrompt (echo.text (c ++ ending.text)) = '\n' :: c ++ ending.text := by
  have hbehind : ¬ promptMarker <:+: blankLine ++ (c ++ ending.text) := by
    intro h
    rcases List.infix_cons_iff.mp h with h | h
    · simp [promptMarker] at h
    · exact not_infix_append_ending hc h
  have hall : ¬ promptMarker <:+: echo.prompt ++ (blankLine ++ (c ++ ending.text)) := by
    have hapart : Search.Apart promptMarker blankLine := by decide
    exact Search.not_infix_append echo.prompt_unmarked.1 hbehind (hapart.append (by decide) _)
  have hborderless : Search.Borderless promptMarker := by decide
  have hrfind := Search.rfind_append hborderless (by decide) hall echo.banner
  have hdrop : (echo.text (c ++ ending.text)).drop (echo.banner.length + 3) =
      echo.prompt ++ (blankLine ++ (c ++ ending.text)) := by
    rw [Echo.text, ← List.append_assoc]
    exact List.drop_left' (by simp [promptMarker])
  have hpre : blankLine <+: blankLine ++ (c ++ ending.text) := List.prefix_append ..
  obtain ⟨j, hj⟩ : ∃ j, Search.find blankLine (echo.prompt ++ (blankLine ++ (c ++ ending.text))) =
      some j := by
    refine Option.ne_none_iff_exists'.mp fun hnone => Search.find_eq_none_iff.mp hnone ?_
    exact List.infix_append' ..
  have hle := Search.find_le hj hpre
  have hlt := Search.lt_of_find hj echo.prompt_unmarked.2.1
  have hskip : skipPrompt (echo.text (c ++ ending.text)) =
      (echo.prompt ++ (blankLine ++ (c ++ ending.text))).drop (j + 2) := by
    rw [skipPrompt, show Search.rfind promptMarker (echo.text _) = _ from hrfind]
    simp only [hdrop, hj]
  have hlength : blankLine.length = 2 := rfl
  rw [hskip]
  rcases (by omega : j = echo.prompt.length ∨ echo.prompt.length = j + 1) with rfl | hj1
  · left
    rw [← List.append_assoc]
    exact List.drop_left' (by simp [blankLine])
  · right
    have hsplit : echo.prompt ++ (blankLine ++ (c ++ ending.text)) =
        (echo.prompt ++ ['\n']) ++ ('\n' :: c ++ ending.text) := by
      simp [blankLine]
    rw [hsplit]
    exact List.drop_left' (by simp [hj1])

/-- A line break in front is trimmed. -/
theorem trim_newline (text : List Char) : trim ('\n' :: text) = trim text := by
  rw [trim, List.dropWhile_cons_of_pos (by decide), trim]

/-- With an echo, a completion that is clean even behind a line feed is extracted. -/
theorem extractCompletion_echo (echo : Echo) (hc : Clean ('\n' :: c)) :
    extractCompletion (echo.text (c ++ ending.text)) = trim c := by
  have hc' := hc.of_cons
  rcases skipPrompt_echo echo hc.prompt with h | h
  · rw [extractCompletion, h, cutAt_ending hc'.timing hc'.exit]
  · rw [extractCompletion, h, cutAt_ending hc.timing hc.exit, trim_newline]

end Sufficient

section Necessary

variable {marker text : List Char}

/-- The number of characters that are not white space. -/
def ink (text : List Char) : Nat := text.countP fun c => !isWhitespace c

/-- The ink of a text is that of its parts. -/
theorem ink_append (a b : List Char) : ink (a ++ b) = ink a + ink b := List.countP_append

/-- A part of a text has no more ink. -/
theorem ink_le_of_sublist {a b : List Char} (h : a.Sublist b) : ink a ≤ ink b := h.countP_le

/-- Blanks in front have no ink. -/
theorem ink_dropWhile (text : List Char) : ink (text.dropWhile isWhitespace) = ink text := by
  induction text with
  | nil => rfl
  | cons c text ih =>
    by_cases hc : isWhitespace c = true
    · rw [List.dropWhile_cons_of_pos hc, ih]
      simp [ink, hc]
    · rw [List.dropWhile_cons_of_neg hc]

/-- Trimming loses no ink. -/
@[simp] theorem ink_trim (text : List Char) : ink (trim text) = ink text := by
  have hreverse : ∀ t : List Char, ink t.reverse = ink t := fun t => List.countP_reverse
  rw [trim, hreverse, ink_dropWhile, hreverse, ink_dropWhile]

/-- What stands before and behind an occurrence of a marker lacks the marker's ink. -/
theorem ink_around {i : Nat} (h : marker <+: text.drop i) :
    ink (text.take i) + ink marker + ink (text.drop (i + marker.length)) = ink text := by
  obtain ⟨behind, hbehind⟩ := h
  have hdrop : text.drop (i + marker.length) = behind := by
    rw [← List.drop_drop, ← hbehind, List.drop_left]
  have hsplit := List.take_append_drop i text
  rw [hdrop, Nat.add_assoc, ← ink_append, hbehind, ← ink_append, hsplit]

/-- Cutting adds no ink. -/
theorem ink_cutAt_le (marker text : List Char) : ink (cutAt marker text) ≤ ink text := by
  unfold cutAt
  split
  · exact ink_le_of_sublist (List.take_sublist ..)
  · exact Nat.le_refl _

/-- Cutting at a marker loses its ink. -/
theorem ink_cutAt_lt (h : marker <:+: text) (hmarker : 0 < ink marker) :
    ink (cutAt marker text) < ink text := by
  unfold cutAt
  split
  · rename_i i hi
    have haround := ink_around (Search.prefix_drop_of_find hi)
    omega
  · rename_i hnone
    exact (Search.find_eq_none_iff.mp hnone h).elim

/-- Skipping the prompt takes the ink of its marker away. -/
theorem ink_skipPrompt_lt (h : promptMarker <:+: text) : ink (skipPrompt text) < ink text := by
  unfold skipPrompt
  split
  · rename_i i hi
    have haround := ink_around (Search.prefix_drop_of_rfind hi)
    have hmarker : ink promptMarker = 1 := by decide
    have hlength : promptMarker.length = 3 := rfl
    rw [hmarker, hlength] at haround
    dsimp only
    split
    · rename_i j _
      have hle := ink_le_of_sublist (List.drop_sublist (j + 2) (text.drop (i + 3)))
      omega
    · omega
  · rename_i hnone
    exact (Search.rfind_eq_none_iff.mp hnone h).elim

/-- A text whose ink survives both cuts has none of their markers. -/
theorem not_infix_of_ink_cuts
    (h : ink text ≤ ink (cutAt exitMarker (cutAt timingMarker text))) :
    ¬ timingMarker <:+: text ∧ ¬ exitMarker <:+: text := by
  have htiming : ¬ timingMarker <:+: text := by
    intro hoccurs
    have hlt := ink_cutAt_lt hoccurs (by decide)
    have hle := ink_cutAt_le exitMarker (cutAt timingMarker text)
    omega
  refine ⟨htiming, fun hoccurs => ?_⟩
  rw [cutAt_absent htiming] at h
  have hlt := ink_cutAt_lt hoccurs (by decide)
  omega

/-- An output from which all ink is extracted is clean. -/
theorem clean_of_ink (h : ink text ≤ ink (extractCompletion text)) : Clean text := by
  rw [extractCompletion, ink_trim] at h
  have hprompt : ¬ promptMarker <:+: text := by
    intro hoccurs
    have hlt := ink_skipPrompt_lt hoccurs
    have hle := ink_cutAt_le exitMarker (cutAt timingMarker (skipPrompt text))
    have hle' := ink_cutAt_le timingMarker (skipPrompt text)
    omega
  rw [skipPrompt_absent hprompt] at h
  obtain ⟨htiming, hexit⟩ := not_infix_of_ink_cuts h
  exact ⟨hprompt, htiming, hexit⟩

/-- Where the prompt marker occurs in `text`, what stands before is skipped. -/
theorem skipPrompt_append (h : promptMarker <:+: text) (before : List Char) :
    skipPrompt (before ++ text) = skipPrompt text := by
  obtain ⟨i, hi⟩ : ∃ i, Search.rfind promptMarker text = some i :=
    Option.ne_none_iff_exists'.mp fun hnone => Search.rfind_eq_none_iff.mp hnone h
  have hdrop : (before ++ text).drop (i + before.length + 3) = text.drop (i + 3) := by
    rw [show i + before.length + 3 = before.length + (i + 3) by omega]
    exact List.drop_length_add_append (i + 3)
  simp only [skipPrompt, Search.rfind_append_left h before, hi, Option.map_some, hdrop]

/-- An echo whose prompt is one line feed. -/
def newlineEcho : Echo where
  banner := []
  prompt := ['\n']
  banner_unmarked := by
    refine ⟨?_, ?_, ?_, ?_⟩ <;> decide
  prompt_unmarked := by
    refine ⟨?_, ?_, ?_, ?_⟩ <;> decide

/-- Nothing behind the completion. -/
def noEnding : Ending where
  timing := none
  exiting := false
  timing_unmarked := by rintro _ ⟨⟩

/-- A completion extracted from behind the echoed line feed is clean behind a line feed. -/
theorem clean_of_newlineEcho {c : List Char}
    (h : extractCompletion (newlineEcho.text c) = trim c) : Clean ('\n' :: c) := by
  have htext : newlineEcho.text c = promptMarker ++ ('\n' :: '\n' :: '\n' :: c) := rfl
  have hink : ink (extractCompletion (newlineEcho.text c)) = ink c := by rw [h, ink_trim]
  have hspace : ∀ text : List Char, ink ('\n' :: text) = ink text := by
    intro text
    simp [ink, isWhitespace]
  have hprompt : ¬ promptMarker <:+: '\n' :: '\n' :: '\n' :: c := by
    intro hoccurs
    have hlt := ink_skipPrompt_lt hoccurs
    rw [htext, extractCompletion, skipPrompt_append hoccurs, ink_trim] at hink
    have hle :=
      ink_cutAt_le exitMarker (cutAt timingMarker (skipPrompt ('\n' :: '\n' :: '\n' :: c)))
    have hle' := ink_cutAt_le timingMarker (skipPrompt ('\n' :: '\n' :: '\n' :: c))
    simp only [hspace] at hlt
    omega
  have hborderless : Search.Borderless promptMarker := by decide
  have hrfind := Search.rfind_append hborderless (by decide) hprompt []
  have hskip : skipPrompt (newlineEcho.text c) = '\n' :: c := by
    rw [skipPrompt, htext, show Search.rfind promptMarker (promptMarker ++ _) = some 0 from hrfind]
    have hfind : Search.find blankLine ('\n' :: '\n' :: '\n' :: c) = some 0 :=
      Search.find_of_prefix (by simp [blankLine])
    simp [promptMarker, hfind]
  rw [extractCompletion, hskip, ink_trim] at hink
  have hle : ink ('\n' :: c) ≤ ink (cutAt exitMarker (cutAt timingMarker ('\n' :: c))) := by
    rw [hink, hspace]
  obtain ⟨htiming, hexit⟩ := not_infix_of_ink_cuts hle
  exact ⟨fun hoccurs => hprompt (List.infix_cons (List.infix_cons hoccurs)), htiming, hexit⟩

end Necessary

/-- A completion is extracted from every output around it exactly when, with a line feed put before
it, it contains none of the three markers; where the prompt is not echoed the completion itself is
to contain none. -/
theorem extractCompletion_iff (c : List Char) :
    ((∀ w : Wrapping, extractCompletion (w.wrap c) = trim c) ↔ Clean ('\n' :: c)) ∧
      ((∀ ending : Ending, extractCompletion (c ++ ending.text) = trim c) ↔ Clean c) := by
  constructor
  · constructor
    · intro h
      have hecho := h ⟨some newlineEcho, noEnding⟩
      simp only [Wrapping.wrap, Ending.text, noEnding, Bool.false_eq_true, reduceIte,
        List.append_nil] at hecho
      exact clean_of_newlineEcho hecho
    · rintro hc ⟨_ | echo, ending⟩
      · exact extractCompletion_ending hc.of_cons
      · exact extractCompletion_echo echo hc
  · constructor
    · intro h
      have hplain := h noEnding
      simp only [Ending.text, noEnding, Bool.false_eq_true, reduceIte, List.append_nil] at hplain
      exact clean_of_ink (by rw [hplain, ink_trim])
    · intro hc ending
      exact extractCompletion_ending hc

/-- The output the repository's own test feeds the extraction. -/
example : extractCompletion
    "Loading model...\n\n> prompt\n\nhello world\n\n[ Prompt: 1 t/s ]\n\nExiting...".toList =
      "hello world".toList := by decide +kernel

/-- A completion that quotes a line, printed alone: what stands before the quotation is lost. -/
theorem extractCompletion_quotation :
    extractCompletion ((⟨none, noEnding⟩ : Wrapping).wrap "The answer:\n> 42".toList) =
        "42".toList ∧
      trim "The answer:\n> 42".toList = "The answer:\n> 42".toList := by
  refine ⟨?_, ?_⟩ <;> decide +kernel

end Veriai.Runtime
