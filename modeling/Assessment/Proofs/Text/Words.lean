import Assessment.Text.Blank
import Mathlib.Data.List.DropRight
import Mathlib.Data.List.TakeWhile

/-
  Texts between blanks, and the words of a text.

  A text is taken apart into blanks and words. What stands
  between its outermost blanks starts and ends with a word,
  and has the same words as the text.

  Main declarations:
    * `Text.Blank` and `Text.Solid`, runs of characters
    * `Text.Padded`, what stands between blanks
    * `Text.padded_trim` and `trim_of_padded`
    * `Text.words_eq_pair_iff`, texts of two words
-/

------------------------------------------------------------
-- Runs of Characters
------------------------------------------------------------

namespace Assessment

namespace Text

/- All characters are blank. -/
def Blank (cs : List Char) : Prop :=
  ∀ c ∈ cs, isBlank c = true

/- There are characters, and none is blank. -/
def Solid (cs : List Char) : Prop :=
  cs ≠ [] ∧ ∀ c ∈ cs, isBlank c = false

theorem blank_nil : Blank [] := by
  simp [Blank]

theorem Blank.append
    {before after : List Char}
    (hBefore : Blank before)
    (hAfter : Blank after) :
    Blank (before ++ after) := by
  intro c hMem
  exact (List.mem_append.mp hMem).elim (hBefore c) (hAfter c)

theorem Blank.reverse {cs : List Char} (hBlank : Blank cs) :
    Blank cs.reverse :=
  fun c hMem => hBlank c (List.mem_reverse.mp hMem)

theorem Solid.reverse {cs : List Char} (hSolid : Solid cs) :
    Solid cs.reverse :=
  ⟨by simpa using hSolid.1,
    fun c hMem => hSolid.2 c (List.mem_reverse.mp hMem)⟩

theorem Solid.cons
    {c : Char}
    {cs : List Char}
    (hFirst : isBlank c = false)
    (hPlain : ∀ d ∈ cs, isBlank d = false) :
    Solid (c :: cs) :=
  ⟨List.cons_ne_nil c cs, List.forall_mem_cons.mpr ⟨hFirst, hPlain⟩⟩

theorem Solid.append_left
    {before cs : List Char}
    (hPlain : ∀ c ∈ before, isBlank c = false)
    (hSolid : Solid cs) :
    Solid (before ++ cs) :=
  ⟨List.append_ne_nil_of_right_ne_nil before hSolid.1,
    List.forall_mem_append.mpr ⟨hPlain, hSolid.2⟩⟩

theorem blank_takeWhile (cs : List Char) :
    Blank (cs.takeWhile isBlank) :=
  fun _ hMem => List.mem_takeWhile_imp hMem

theorem dropWhile_of_blank
    {before : List Char}
    (hBlank : Blank before)
    (rest : List Char) :
    (before ++ rest).dropWhile isBlank =
      rest.dropWhile isBlank := by
  induction before with
  | nil => rfl
  | cons c before ih =>
      have hFirst := hBlank c List.mem_cons_self
      have hOthers : Blank before :=
        fun d hMem => hBlank d (List.mem_cons_of_mem c hMem)
      rw [List.cons_append, List.dropWhile_cons_of_pos hFirst,
        ih hOthers]

theorem dropWhile_of_solid
    {cs : List Char}
    (hSolid : Solid cs)
    (rest : List Char) :
    (cs ++ rest).dropWhile isBlank = cs ++ rest := by
  obtain ⟨c, others, rfl⟩ := List.exists_cons_of_ne_nil hSolid.1
  apply List.dropWhile_cons_of_neg
  simp [hSolid.2 c List.mem_cons_self]

------------------------------------------------------------
-- Trimming
------------------------------------------------------------

/- A text consists of characters and blanks around them. -/
def Padded (s : String) (cs : List Char) : Prop :=
  ∃ before after,
    Blank before ∧ Blank after ∧
      s.toList = before ++ cs ++ after

/- What is trimmed has been between blanks. -/
theorem padded_trim (s : String) : Padded s (trim s).toList := by
  have hFront :=
    List.takeWhile_append_dropWhile (p := isBlank) (l := s.toList)
  have hBack :=
    List.takeWhile_append_dropWhile (p := isBlank)
      (l := (s.toList.dropWhile isBlank).reverse)
  refine ⟨s.toList.takeWhile isBlank,
    ((s.toList.dropWhile isBlank).reverse.takeWhile
      isBlank).reverse,
    blank_takeWhile _, (blank_takeWhile _).reverse, ?_⟩
  rw [trim, String.toList_ofList, trimChars, List.append_assoc,
    ← List.reverse_append, hBack, List.reverse_reverse, hFront]

/- A word between blanks is what trimming leaves. -/
theorem trim_of_padded
    {s : String}
    {cs : List Char}
    (hSolid : Solid cs)
    (hPadded : Padded s cs) :
    trim s = String.ofList cs := by
  obtain ⟨before, after, hBefore, hAfter, hText⟩ := hPadded
  have hReverse :
      (cs ++ after).reverse.dropWhile isBlank = cs.reverse := by
    have hSame := dropWhile_of_solid hSolid.reverse []
    rw [List.append_nil] at hSame
    rw [List.reverse_append, dropWhile_of_blank hAfter.reverse,
      hSame]
  rw [trim, trimChars, hText, List.append_assoc,
    dropWhile_of_blank hBefore, dropWhile_of_solid hSolid,
    hReverse, List.reverse_reverse]

/- There is nothing to be trimmed from a word. -/
theorem trim_of_solid {s : String} (hSolid : Solid s.toList) :
    trim s = s := by
  rw [trim_of_padded hSolid
    ⟨[], [], blank_nil, blank_nil, by simp⟩, String.ofList_toList]

/- What has been trimmed is trimmed. -/
theorem trim_trim (s : String) : trim (trim s) = trim s := by
  have hTrim (cs : List Char) :
      trimChars cs = (cs.dropWhile isBlank).rdropWhile isBlank :=
    rfl
  have hStart :
      (trimChars s.toList).dropWhile isBlank =
        trimChars s.toList := by
    rw [List.dropWhile_eq_self_iff]
    intro hSome
    -- The first character is that of the text without its
    -- leading blanks.
    have hWithin :=
      List.rdropWhile_prefix isBlank (s.toList.dropWhile isBlank)
    rw [← hTrim] at hWithin
    have hFirst := hWithin.getElem hSome
    rw [hFirst]
    exact List.dropWhile_get_zero_not _ _ _
  rw [trim, trim, String.toList_ofList, hTrim (trimChars _),
    hStart, hTrim, List.rdropWhile_idempotent]

------------------------------------------------------------
-- Words
------------------------------------------------------------

theorem wordsFrom_blank
    {before : List Char}
    (hBlank : Blank before)
    (rest : List Char) :
    wordsFrom [] (before ++ rest) = wordsFrom [] rest := by
  induction before with
  | nil => rfl
  | cons c before ih =>
      have hFirst := hBlank c List.mem_cons_self
      have hOthers : Blank before :=
        fun d hMem => hBlank d (List.mem_cons_of_mem c hMem)
      rw [List.cons_append, wordsFrom, if_pos hFirst, ih hOthers]
      rfl

/- The characters of a word are kept until it ends. -/
theorem wordsFrom_append
    {word : List Char}
    (hPlain : ∀ c ∈ word, isBlank c = false)
    (current rest : List Char) :
    wordsFrom current (word ++ rest) =
      wordsFrom (word.reverse ++ current) rest := by
  induction word generalizing current with
  | nil => rfl
  | cons c word ih =>
      have hFirst := hPlain c List.mem_cons_self
      rw [List.cons_append, wordsFrom, if_neg (by simp [hFirst]),
        ih (fun d hMem => hPlain d (List.mem_cons_of_mem c hMem)),
        List.reverse_cons, List.append_assoc]
      rfl

theorem wordsFrom_append_blank
    {after : List Char}
    (hBlank : Blank after)
    (current cs : List Char) :
    wordsFrom current (cs ++ after) = wordsFrom current cs := by
  induction cs generalizing current with
  | nil =>
      cases after with
      | nil => rfl
      | cons c after =>
          have hFirst := hBlank c List.mem_cons_self
          have hOthers : Blank after :=
            fun d hMem => hBlank d (List.mem_cons_of_mem c hMem)
          have hNone := wordsFrom_blank hOthers []
          rw [List.append_nil] at hNone
          rw [List.nil_append]
          conv_lhs => rw [wordsFrom, if_pos hFirst, hNone]
          rfl
  | cons c cs ih =>
      rw [List.cons_append, wordsFrom, wordsFrom, ih, ih]

/- The blanks around a text do not change its words. -/
theorem words_of_padded
    {s : String}
    {cs : List Char}
    (hPadded : Padded s cs) :
    words s = wordsFrom [] cs := by
  obtain ⟨before, after, hBefore, hAfter, hText⟩ := hPadded
  rw [words, hText, wordsFrom_append_blank hAfter,
    wordsFrom_blank hBefore]

theorem words_trim (s : String) : words (trim s) = words s :=
  (words_of_padded (padded_trim s)).symm

/- A word ends with the text or at a blank. -/
def Ended (rest : List Char) : Prop :=
  ∀ c others, rest = c :: others → isBlank c = true

theorem wordsFrom_solid
    {word rest : List Char}
    (hSolid : Solid word)
    (hEnded : Ended rest) :
    wordsFrom [] (word ++ rest) =
      String.ofList word :: wordsFrom [] rest := by
  obtain ⟨hSome, hPlain⟩ := hSolid
  rw [wordsFrom_append hPlain, List.append_nil]
  cases rest with
  | nil => simp [wordsFrom, hSome]
  | cons c others => simp [wordsFrom, hSome, hEnded c others rfl]

theorem Blank.ended {cs : List Char} (hBlank : Blank cs) :
    Ended cs := by
  rintro c others rfl
  exact hBlank c List.mem_cons_self

/- A text is blank, or it has a first word. -/
theorem blank_or_first_word (cs : List Char) :
    Blank cs ∨
      ∃ before word rest,
        Blank before ∧ Solid word ∧ Ended rest ∧
          cs = before ++ word ++ rest := by
  let isSolid : Char → Bool := fun c => !isBlank c
  have hBefore :=
    List.takeWhile_append_dropWhile (p := isBlank) (l := cs)
  have hWord :=
    List.takeWhile_append_dropWhile (p := isSolid)
      (l := cs.dropWhile isBlank)
  rcases hOthers : cs.dropWhile isBlank with _ | ⟨c, others⟩
  · left
    rw [hOthers, List.append_nil] at hBefore
    exact hBefore ▸ blank_takeWhile cs
  · right
    have hFirst : isBlank c = false := by
      have hHead := List.dropWhile_get_zero_not isBlank cs
        (by simp [hOthers])
      simpa [hOthers] using hHead
    refine ⟨cs.takeWhile isBlank,
      (cs.dropWhile isBlank).takeWhile isSolid,
      (cs.dropWhile isBlank).dropWhile isSolid,
      blank_takeWhile cs, ⟨?_, ?_⟩, ?_, ?_⟩
    · rw [hOthers,
        List.takeWhile_cons_of_pos (by simp [isSolid, hFirst])]
      exact List.cons_ne_nil _ _
    · intro d hMem
      simpa [isSolid] using List.mem_takeWhile_imp hMem
    · intro d rest hRest
      have hHead :=
        List.dropWhile_get_zero_not isSolid
          (cs.dropWhile isBlank) (by simp [hRest])
      simpa [hRest, isSolid] using hHead
    · rw [List.append_assoc, hWord, hBefore]

theorem wordsFrom_of_blank {cs : List Char} (hBlank : Blank cs) :
    wordsFrom [] cs = [] := by
  have hNone := wordsFrom_blank hBlank []
  rwa [List.append_nil] at hNone

/- A text has two words, if it has two runs with a gap. -/
theorem words_eq_pair_iff {s a b : String} :
    words s = [a, b] ↔
      Solid a.toList ∧ Solid b.toList ∧
        ∃ gap, Blank gap ∧ gap ≠ [] ∧
          Padded s (a.toList ++ gap ++ b.toList) := by
  constructor
  · intro hWords
    unfold words at hWords
    rcases blank_or_first_word s.toList with hBlank |
        ⟨before, first, rest, hBefore, hFirst, hEnded, hText⟩
    · rw [wordsFrom_of_blank hBlank] at hWords
      cases hWords
    rw [hText, List.append_assoc, wordsFrom_blank hBefore,
      wordsFrom_solid hFirst hEnded] at hWords
    obtain ⟨rfl, hRest⟩ := List.cons.inj hWords
    rcases blank_or_first_word rest with hBlank |
        ⟨gap, second, after, hGap, hSecond, hLast, rfl⟩
    · rw [wordsFrom_of_blank hBlank] at hRest
      cases hRest
    rw [List.append_assoc, wordsFrom_blank hGap,
      wordsFrom_solid hSecond hLast] at hRest
    obtain ⟨rfl, hAfter⟩ := List.cons.inj hRest
    have hAfterBlank : Blank after := by
      rcases blank_or_first_word after with hBlank |
          ⟨more, third, _, hMore, hThird, hEnd, rfl⟩
      · exact hBlank
      · rw [List.append_assoc, wordsFrom_blank hMore,
          wordsFrom_solid hThird hEnd] at hAfter
        cases hAfter
    rw [String.toList_ofList, String.toList_ofList]
    refine ⟨hFirst, hSecond, gap, hGap, ?_, before, after,
      hBefore, hAfterBlank, by simp [hText]⟩
    -- Without a gap there would be one word.
    rintro rfl
    obtain ⟨c, others, rfl⟩ := List.exists_cons_of_ne_nil hSecond.1
    have hStart := hSecond.2 c List.mem_cons_self
    rw [hEnded c _ rfl] at hStart
    cases hStart
  · rintro ⟨hA, hB, gap, hGap, hSome, hPadded⟩
    have hEnded : Ended (gap ++ b.toList) := by
      obtain ⟨c, others, rfl⟩ := List.exists_cons_of_ne_nil hSome
      rintro d rest hCons
      rw [← (List.cons.inj hCons).1]
      exact hGap c List.mem_cons_self
    have hEnd : Ended [] := by simp [Ended]
    have hLast := wordsFrom_solid hB hEnd
    rw [List.append_nil] at hLast
    rw [words_of_padded hPadded, List.append_assoc,
      wordsFrom_solid hA hEnded, wordsFrom_blank hGap, hLast]
    simp [wordsFrom]

end Text

end Assessment
