import Inference.Text.Blank

/-!
# Inference.Proofs.Text.Words

A text is read as its words: the runs of characters that are not blank, as long as they can be. At a
blank a text falls into two that are read each on its own, and words are read back from a text in
which they are written with spaces between them.

* `IsWord`: a text that is read as one word.
* `words_append`: texts with blanks between them are read one after the other.
* `words_intercalate`: words written down with single spaces between them are read back.
* `splitOn_intercalate`: they are also found when the text is cut at the spaces.
* `SplitsInto`: the words of a text by the blanks around them; `splitsInto_iff`, they are what is
  read.
-/

namespace Inference
namespace Text

/-- A text that is not empty and holds no blank. -/
def IsWord (s : String) : Prop := s ≠ "" ∧ ∀ c ∈ s.toList, ¬ isBlank c

instance : DecidablePred IsWord := fun s =>
  decidable_of_iff (s ≠ "" ∧ s.toList.any isBlank = false) (by simp [IsWord])

theorem IsWord.toList_ne_nil {s : String} (h : IsWord s) : s.toList ≠ [] :=
  fun he => h.1 (String.toList_eq_nil_iff.mp he)

theorem splitRun_cons_blank {blank : Char} (h : isBlank blank = true) (cs : List Char) :
    splitRun (blank :: cs) = ([], wordChars cs) := by
  simp only [splitRun, if_pos h, wordChars]

theorem splitRun_cons_of_not_blank {c : Char} (h : ¬ isBlank c) (cs : List Char) :
    splitRun (c :: cs) = (c :: (splitRun cs).1, (splitRun cs).2) := by
  simp only [splitRun, if_neg h]

theorem splitRun_of_not_blank {run : List Char} (h : ∀ c ∈ run, ¬ isBlank c) :
    splitRun run = (run, []) := by
  induction run with
  | nil => rfl
  | cons c run ih =>
    obtain ⟨hc, hrun⟩ := List.forall_mem_cons.mp h
    rw [splitRun_cons_of_not_blank hc, ih hrun]

theorem consRun_append (run : List Char) (rest more : List (List Char)) :
    consRun run (rest ++ more) = consRun run rest ++ more := by
  unfold consRun
  split <;> rfl

theorem splitRun_append_blank {blank : Char} (h : isBlank blank = true) (cs ds : List Char) :
    splitRun (cs ++ blank :: ds) = ((splitRun cs).1, (splitRun cs).2 ++ wordChars ds) := by
  induction cs with
  | nil => exact splitRun_cons_blank h ds
  | cons c cs ih =>
    by_cases hc : isBlank c
    · rw [List.cons_append, splitRun_cons_blank hc, splitRun_cons_blank hc, wordChars, ih,
        consRun_append]
      rfl
    · rw [List.cons_append, splitRun_cons_of_not_blank hc, splitRun_cons_of_not_blank hc, ih]

theorem wordChars_append_blank {blank : Char} (h : isBlank blank = true) (cs ds : List Char) :
    wordChars (cs ++ blank :: ds) = wordChars cs ++ wordChars ds := by
  rw [wordChars, splitRun_append_blank h, consRun_append]
  rfl

theorem wordChars_cons_blank {blank : Char} (h : isBlank blank = true) (ds : List Char) :
    wordChars (blank :: ds) = wordChars ds :=
  wordChars_append_blank h [] ds

theorem wordChars_blanks_append {blanks : List Char} (h : ∀ c ∈ blanks, isBlank c = true)
    (ds : List Char) : wordChars (blanks ++ ds) = wordChars ds := by
  induction blanks with
  | nil => rfl
  | cons blank blanks ih =>
    obtain ⟨hblank, hblanks⟩ := List.forall_mem_cons.mp h
    rw [List.cons_append, wordChars_cons_blank hblank, ih hblanks]

theorem words_of_isWord {s : String} (h : IsWord s) : words s = [s] := by
  rw [words, wordChars, splitRun_of_not_blank h.2, consRun, if_neg h.toList_ne_nil,
    List.map_singleton, String.ofList_toList]

/-- Texts with blanks between them, one at least, are read one after the other. -/
theorem words_append {blanks : String} (hne : blanks ≠ "")
    (h : ∀ c ∈ blanks.toList, isBlank c = true) (a b : String) :
    words (a ++ blanks ++ b) = words a ++ words b := by
  cases hblanks : blanks.toList with
  | nil => exact absurd (String.toList_eq_nil_iff.mp hblanks) hne
  | cons blank more =>
    rw [hblanks] at h
    obtain ⟨hblank, hmore⟩ := List.forall_mem_cons.mp h
    have hchars : (a ++ blanks ++ b).toList = a.toList ++ blank :: (more ++ b.toList) := by
      simp [hblanks]
    rw [words, hchars, wordChars_append_blank hblank, wordChars_blanks_append hmore,
      List.map_append]
    rfl

theorem words_intercalate {ss : List String} (h : ∀ s ∈ ss, IsWord s) :
    words (String.intercalate " " ss) = ss := by
  have hspace : ∀ c ∈ " ".toList, isBlank c = true := by
    intro c hc
    obtain rfl : c = ' ' := by simpa using hc
    rfl
  induction ss with
  | nil => decide
  | cons s rest ih =>
    obtain ⟨hs, hrest⟩ := List.forall_mem_cons.mp h
    cases rest with
    | nil => rw [String.intercalate_singleton, words_of_isWord hs]
    | cons t rest =>
      rw [String.intercalate_cons_cons, words_append (by decide) hspace, words_of_isWord hs,
        ih hrest]
      rfl

theorem splitOn_intercalate {ss : List String} (hne : ss ≠ []) (h : ∀ s ∈ ss, IsWord s) :
    (String.intercalate " " ss).toList.splitOn ' ' = ss.map String.toList := by
  have hspace : ∀ cs ∈ ss.map String.toList, ' ' ∉ cs :=
    List.forall_mem_map.mpr fun s hs hmem => (h s hs).2 ' ' hmem (by decide)
  rw [String.toList_intercalate]
  exact List.splitOn_intercalate ' ' hspace (by simpa using hne)

theorem intercalate_eq_empty_iff {ss : List String} (h : ∀ s ∈ ss, IsWord s) :
    String.intercalate " " ss = "" ↔ ss = [] := by
  constructor
  · intro hempty
    rw [← words_intercalate h, hempty]
    decide
  · rintro rfl
    rfl

/-! ## Words by the blanks around them -/

/-- The text falls into these words, in order, and blanks. A word is as long as it can be: after it
there is a blank, or the text ends. -/
inductive SplitsInto : List Char → List String → Prop where
  | nil : SplitsInto [] []
  | blank {c : Char} {cs : List Char} {ws : List String} : isBlank c = true → SplitsInto cs ws →
      SplitsInto (c :: cs) ws
  | word {w : String} {cs : List Char} {ws : List String} : IsWord w →
      (∀ c ∈ cs.head?, isBlank c = true) → SplitsInto cs ws → SplitsInto (w.toList ++ cs) (w :: ws)

theorem SplitsInto.isWord {cs : List Char} {ws : List String} (h : SplitsInto cs ws) :
    ∀ w ∈ ws, IsWord w := by
  induction h with
  | nil => exact List.forall_mem_nil _
  | blank _ _ ih => exact ih
  | word hw _ _ ih => exact List.forall_mem_cons.mpr ⟨hw, ih⟩

theorem SplitsInto.consRun {run tail : List Char} {rest : List (List Char)}
    (hrun : ∀ c ∈ run, ¬ isBlank c) (htail : ∀ c ∈ tail.head?, isBlank c = true)
    (h : SplitsInto tail (rest.map String.ofList)) :
    SplitsInto (run ++ tail) ((consRun run rest).map String.ofList) := by
  by_cases hne : run = []
  · simpa [hne, Text.consRun] using h
  · have hword : IsWord (String.ofList run) := by
      simpa [IsWord, String.ofList_eq_empty_iff, hne] using hrun
    have hsplit := SplitsInto.word hword htail h
    rw [String.toList_ofList] at hsplit
    simpa [hne, Text.consRun] using hsplit

/-- The first run ends at a blank or at the end of the text, and the words after it are those of
the rest. -/
theorem exists_tail_splitRun (cs : List Char) :
    ∃ tail, cs = (splitRun cs).1 ++ tail ∧ (∀ c ∈ (splitRun cs).1, ¬ isBlank c) ∧
      (∀ c ∈ tail.head?, isBlank c = true) ∧
      SplitsInto tail ((splitRun cs).2.map String.ofList) := by
  induction cs with
  | nil => exact ⟨[], rfl, List.forall_mem_nil _, by simp, .nil⟩
  | cons c cs ih =>
    obtain ⟨tail, hcs, hrun, htail, hrest⟩ := ih
    by_cases hc : isBlank c
    · have hsplit := SplitsInto.consRun hrun htail hrest
      rw [← hcs] at hsplit
      rw [splitRun_cons_blank hc]
      exact ⟨c :: cs, rfl, List.forall_mem_nil _, by simpa using hc, .blank hc hsplit⟩
    · rw [splitRun_cons_of_not_blank hc]
      refine ⟨tail, ?_, List.forall_mem_cons.mpr ⟨hc, hrun⟩, htail, hrest⟩
      rw [List.cons_append, ← hcs]

theorem splitsInto_words (s : String) : SplitsInto s.toList (words s) := by
  obtain ⟨tail, hcs, hrun, htail, hrest⟩ := exists_tail_splitRun s.toList
  have hsplit := SplitsInto.consRun hrun htail hrest
  rw [← hcs] at hsplit
  exact hsplit

theorem SplitsInto.wordChars_eq {cs : List Char} {ws : List String} (h : SplitsInto cs ws) :
    (wordChars cs).map String.ofList = ws := by
  induction h with
  | nil => rfl
  | blank hc _ ih => rw [wordChars_cons_blank hc, ih]
  | @word w cs ws hw hhead _ ih =>
    have hword : (wordChars w.toList).map String.ofList = [w] := words_of_isWord hw
    cases cs with
    | nil =>
      cases ih
      rw [List.append_nil, hword]
      rfl
    | cons blank cs =>
      have hblank : isBlank blank = true := hhead blank rfl
      rw [wordChars_cons_blank hblank] at ih
      rw [wordChars_append_blank hblank, List.map_append, hword, ih]
      rfl

/-- What is read are the words of the text, and nothing else is. -/
theorem splitsInto_iff {s : String} {ws : List String} : SplitsInto s.toList ws ↔ ws = words s := by
  constructor
  · intro h
    exact h.wordChars_eq.symm
  · rintro rfl
    exact splitsInto_words s

theorem isWord_of_mem_words {s word : String} (h : word ∈ words s) : IsWord word :=
  (splitsInto_words s).isWord word h

end Text
end Inference
