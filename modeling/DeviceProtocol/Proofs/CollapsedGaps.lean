import DeviceProtocol.Proofs.LineEnds
set_option autoImplicit false

namespace DeviceProtocol

namespace Scanner

/-- White space and comments that stand in front of a text. A comment goes up to the end of its line, and the last one
may go up to the end of the source. -/
inductive GapBefore (behind : Text) : Text → Prop
  | nil : GapBefore behind []
  | space {c : Char} {cs : Text} (white : isSpace c = true) (more : GapBefore behind cs) : GapBefore behind (c :: cs)
  | comment {body cs : Text} (inside : '\n' ∉ body) (more : GapBefore behind cs) :
      GapBefore behind ('#' :: (body ++ '\n' :: cs))
  | last {body : Text} (whole : behind = []) (inside : '\n' ∉ body) : GapBefore behind ('#' :: body)

/-- The second text is the first with one blank for each gap. No gap stops in front of a character that would prolong
it. -/
inductive Collapsed : Text → Text → Prop
  | nil : Collapsed [] []
  | char {c : Char} {cs out : Text} (solid : opensGap c = false) (more : Collapsed cs out) :
      Collapsed (c :: cs) (c :: out)
  | gap {run behind out : Text} (some : run ≠ []) (blank : GapBefore behind run) (fresh : Fresh behind)
      (more : Collapsed behind out) : Collapsed (run ++ behind) (' ' :: out)

def afterChars : Nat → Scanner → Scanner
  | 0, s => s
  | n + 1, s => afterChars n s.readChar.2

section Gaps

variable {behind run : Text} (line : Int)

theorem GapBefore.opensGap {c : Char} (h : GapBefore behind (c :: run)) : opensGap c = true := by
  cases h with
  | space white more => simp only [Scanner.opensGap, white, Bool.true_or]
  | comment inside more => rfl
  | last whole inside => rfl

theorem GapBefore.prolong {c : Char} (h : GapBefore behind ('#' :: run)) (other : c ≠ '\n') :
    GapBefore behind ('#' :: c :: run) := by
  cases h with
  | space white more => exact absurd white (by decide)
  | @comment body cs inside more =>
    exact GapBefore.comment (List.not_mem_cons_of_ne_of_not_mem (Ne.symm other) inside) more
  | last whole inside => exact .last whole (List.not_mem_cons_of_ne_of_not_mem (Ne.symm other) inside)

theorem skipGap_comment (body cs : Text) (inside : '\n' ∉ body) :
    skipGap true (body ++ '\n' :: cs) line = skipGap false cs (line + 1) := by
  induction body with
  | nil => simp only [List.nil_append, skipGap, if_true]
  | cons c body ih =>
    obtain ⟨other, inside⟩ := not_or.1 (mt List.mem_cons.2 inside)
    simp only [List.cons_append, skipGap, if_neg (Ne.symm other), ih inside]

theorem skipGap_last (body : Text) (inside : '\n' ∉ body) : (skipGap true body line).1 = [] := by
  induction body with
  | nil => rfl
  | cons c body ih =>
    obtain ⟨other, inside⟩ := not_or.1 (mt List.mem_cons.2 inside)
    simp only [skipGap, if_neg (Ne.symm other), ih inside]

theorem skipGap_fresh (fresh : Fresh behind) : skipGap false behind line = (behind, line) := by
  cases behind with
  | nil => rfl
  | cons c cs =>
    obtain ⟨white, comment⟩ := Bool.or_eq_false_iff.1 (fresh c rfl)
    simp only [skipGap, if_neg (ne_of_beq_false comment), white, Bool.false_eq_true, if_false]

theorem skipGap_gap (blank : GapBefore behind run) (fresh : Fresh behind) :
    (skipGap false (run ++ behind) line).1 = behind := by
  induction blank generalizing line with
  | nil => rw [List.nil_append, skipGap_fresh line fresh]
  | @space c cs white more ih =>
    have other : c ≠ '#' := fun h => absurd (h ▸ white) (by decide)
    simp only [List.cons_append, skipGap, if_neg other, white, if_true, ih]
  | @comment body cs inside more ih =>
    simp only [List.cons_append, List.append_assoc, skipGap, if_true, skipGap_comment _ _ _ inside, ih]
  | @last body whole inside =>
    simp only [whole, List.append_nil, skipGap, if_true, skipGap_last _ _ inside]

/-- What is skipped is a gap, and none is left behind it. Inside a comment, its start is missing. -/
theorem skipGap_takes (comment : Bool) (cs : Text) :
    ∃ run, cs = run ++ (skipGap comment cs line).1 ∧
      GapBefore (skipGap comment cs line).1 (if comment then '#' :: run else run) ∧
      Fresh (skipGap comment cs line).1 := by
  -- inside a comment the run lacks its number sign, which stood in front of the text
  induction cs generalizing comment line with
  | nil =>
    have fresh : Fresh [] := by
      rintro c ⟨⟩
    cases comment with
    | true => exact ⟨[], rfl, .last rfl List.not_mem_nil, fresh⟩
    | false => exact ⟨[], rfl, .nil, fresh⟩
  | cons c cs ih =>
    cases comment with
    | true =>
      by_cases newline : c = '\n'
      · obtain ⟨run, parts, blank, fresh⟩ := ih (line + 1) false
        simp only [skipGap, newline, if_true]
        exact ⟨'\n' :: run, congrArg _ parts, @GapBefore.comment _ [] run List.not_mem_nil blank, fresh⟩
      · obtain ⟨run, parts, blank, fresh⟩ := ih line true
        simp only [skipGap, newline, if_false]
        exact ⟨c :: run, congrArg _ parts, blank.prolong newline, fresh⟩
    | false =>
      by_cases hash : c = '#'
      · obtain ⟨run, parts, blank, fresh⟩ := ih line true
        simp only [skipGap, hash, if_true]
        exact ⟨'#' :: run, congrArg _ parts, blank, fresh⟩
      by_cases white : isSpace c = true
      · obtain ⟨run, parts, blank, fresh⟩ := ih (if c = '\n' then line + 1 else line) false
        simp only [skipGap, hash, white, if_true, if_false]
        exact ⟨c :: run, congrArg _ parts, .space white blank, fresh⟩
      · simp only [skipGap, hash, white, if_false]
        refine ⟨[], rfl, .nil, ?_⟩
        rintro d ⟨⟩
        simp only [opensGap, white, hash, beq_eq_false_iff_ne, Bool.or_eq_false_iff, ne_eq, not_false_eq_true, and_self]

end Gaps

theorem exists_collapsed (source : Text) : ∃ out, Collapsed source out := by
  induction length : source.length using Nat.strongRecOn generalizing source with
  | ind n ih =>
    cases source with
    | nil => exact ⟨[], .nil⟩
    | cons c cs =>
      rw [List.length_cons] at length
      cases opens : opensGap c with
      | false =>
        obtain ⟨out, more⟩ := ih cs.length (by omega) cs rfl
        exact ⟨c :: out, .char opens more⟩
      | true =>
        obtain ⟨run, parts, blank, fresh⟩ := skipGap_takes 1 false (c :: cs)
        generalize (skipGap false (c :: cs) 1).1 = behind at parts blank fresh
        have some : run ≠ [] := by
          rintro rfl
          have solid := fresh c (congrArg List.head? parts).symm
          exact Bool.false_ne_true (solid.symm.trans opens)
        have shorter : behind.length < n := by
          have whole := congrArg List.length parts
          have taken := List.length_pos_of_ne_nil some
          rw [List.length_cons, List.length_append] at whole
          omega
        obtain ⟨out, more⟩ := ih behind.length shorter behind rfl
        exact ⟨' ' :: out, parts ▸ .gap some blank fresh more⟩

theorem readChar_collapsed {s : Scanner} {out : Text} (h : Collapsed s.rest out) :
    s.readChar.1 = out.head? ∧ Collapsed s.readChar.2.rest out.tail := by
  generalize whole : s.rest = source at h
  cases h with
  | nil =>
    simp only [readChar, whole]
    exact ⟨rfl, .nil⟩
  | @char c cs out solid more =>
    simp only [readChar, whole, solid, Bool.false_eq_true, if_false, readRaw]
    exact ⟨rfl, more⟩
  | @gap run behind out some blank fresh more =>
    have behindGap : s.afterGap.rest = behind := by
      rw [afterGap, whole, skipGap_gap s.line blank fresh]
    cases run with
    | nil => exact absurd rfl some
    | cons c cs =>
      simp only [readChar, whole, List.cons_append, blank.opensGap, if_true, behindGap]
      exact ⟨rfl, more⟩

theorem afterChars_collapsed {s : Scanner} {out : Text} (h : Collapsed s.rest out) (n : Nat) :
    (s.afterChars n).readChar.1 = out[n]? := by
  induction n generalizing s out with
  | zero => rw [← List.head?_eq_getElem?]; exact (readChar_collapsed h).1
  | succ n ih => rw [← List.getElem?_tail]; exact ih (readChar_collapsed h).2

theorem Collapsed.unique {source out out' : Text} (h : Collapsed source out) (h' : Collapsed source out') :
    out' = out := by
  refine List.ext_getElem? fun n => ?_
  rw [← afterChars_collapsed (s := .ofSource source) h n, ← afterChars_collapsed (s := .ofSource source) h' n]

theorem afterChars_suffix (n : Nat) (s : Scanner) : (s.afterChars n).rest <:+ s.rest := by
  induction n generalizing s with
  | zero => exact List.suffix_rfl
  | succ n ih => exact (ih s.readChar.2).trans (readChar_suffix s)

theorem afterChars_lastLine (n : Nat) (s : Scanner) : (s.afterChars n).lastLine = s.lastLine := by
  induction n generalizing s with
  | zero => rfl
  | succ n ih => exact (ih s.readChar.2).trans s.readChar_onward.last

theorem readChar_end {s : Scanner} (h : s.readChar.1 = none) : s.rest = [] ∧ s.readChar = (none, s) := by
  have nothing : s.rest = [] := rest_of_readChar_none s s.readChar.2 (Prod.ext h rfl)
  refine ⟨nothing, ?_⟩
  simp only [readChar, nothing]

/-- However many characters have been read, the next one is that of the collapsed source, the line counts the ends of
lines that were passed, and behind the last character nothing changes any more. -/
theorem readChar_collapses_gaps (source : Text) :
    ∃ out, (∀ out', Collapsed source out' ↔ out' = out) ∧
      ∀ n, ((ofSource source).afterChars n).readChar.1 = out[n]? ∧
        (∃ taken, source = taken ++ ((ofSource source).afterChars n).rest ∧
          ((ofSource source).afterChars n).line = 1 + taken.count '\n') ∧
        (out.length ≤ n → ((ofSource source).afterChars n).rest = [] ∧
          ((ofSource source).afterChars n).readChar = (none, (ofSource source).afterChars n)) := by
  obtain ⟨out, collapsed⟩ := exists_collapsed source
  have char (n : Nat) : ((ofSource source).afterChars n).readChar.1 = out[n]? := afterChars_collapsed collapsed n
  refine ⟨out, fun out' => ⟨collapsed.unique, fun same => same ▸ collapsed⟩, fun n => ⟨char n, ?_, fun end_ => ?_⟩⟩
  · obtain ⟨taken, parts⟩ := afterChars_suffix n (ofSource source)
    have lines := afterChars_lastLine n (ofSource source)
    have whole : source.count '\n' = taken.count '\n' + ((ofSource source).afterChars n).rest.count '\n' := by
      rw [← List.count_append, parts]
      rfl
    refine ⟨taken, parts.symm, ?_⟩
    simp only [lastLine, ofSource] at lines whole ⊢
    omega
  · exact readChar_end ((char n).trans (List.getElem?_eq_none end_))

example : (List.range 5).map (fun n => ((ofSource "a # b\n\t#c\nd #e".toList).afterChars n).readChar.1) =
    [some 'a', some ' ', some 'd', some ' ', none] := by decide

end Scanner

end DeviceProtocol
