import Inference.Proofs.Registry.Lookup
import Inference.Proofs.Text.Words
import Inference.Registry.Reading
import Inference.Text.Numbered

/-!
# Inference.Proofs.Registry.Reading

Which forms read back: written out and read again they are made of the same symbols. That depends on
each symbol by itself, and on the categories alone. As long as no category has a name that could be
a variable, a numbered variable over a category reads back like those in the forms of programs do.
A form that was read from a text reads back in any case, and its own text is the normal form of the
text it was read from.

* `ReadsBack`: the form read from the text of a form is that form, places aside.
* `readsBack_iff`: a form reads back when each of its symbols does.
* `categoryOfWord?_of_mem_readForm`, `Consistent.declares_readForm`: the variables of a form that is
  read.
* `baseName_numbered_iff`: what numbered names are named after.
* `Consistent.categoryOfWord?_numbered_iff`: what they are read as.
* `Consistent.readable_numbered`: a new variable over a category that is in use reads back.
* `readNonterminal?_numbered_iff`: when a numbered name is a variable over its category.
* `readForm_normal_form`: reading texts and writing forms.
-/

namespace Inference

open Text (IsWord)

theorem isDigit_of_mem_toString {n : Nat} {c : Char} (h : c ∈ (toString n).toList) :
    c.isDigit = true := by
  rw [Nat.toString_eq_ofList_toDigits, String.toList_ofList] at h
  exact Nat.isDigit_of_mem_toDigits (by decide) (by decide) h

theorem isSuffixChar_of_isDigit {c : Char} (h : c.isDigit = true) : isSuffixChar c = true := by
  rw [isSuffixChar, h]
  rfl

theorem not_isBlank_of_isDigit {c : Char} (h : c.isDigit = true) : ¬ Text.isBlank c := by
  have hrange : 48 ≤ c.toNat ∧ c.toNat ≤ 57 := by
    simpa [Char.isDigit, UInt32.le_iff_toNat_le] using h
  simp only [Text.isBlank, Bool.or_eq_true, Bool.and_eq_true, beq_iff_eq, decide_eq_true_eq]
  omega

theorem isWord_numbered {base : String} (h : IsWord base) (n : Nat) :
    IsWord (Text.numbered base n) := by
  obtain ⟨hne, hblank⟩ := h
  refine ⟨fun he => hne (String.append_eq_empty_iff.mp he).1, fun c hc => ?_⟩
  rw [Text.numbered, String.toList_append, List.mem_append] at hc
  rcases hc with hc | hc
  · exact hblank c hc
  · exact not_isBlank_of_isDigit (isDigit_of_mem_toString hc)

/-- The last character, if there is one, is not one that variables are numbered by. -/
def Unsuffixed (name : String) : Prop := name.toList.getLast?.any isSuffixChar = false

instance : DecidablePred Unsuffixed := fun name =>
  inferInstanceAs (Decidable (name.toList.getLast?.any isSuffixChar = false))

theorem unsuffixed_iff {name : String} : Unsuffixed name ↔
    ∀ last, name.toList.getLast? = some last →
      last.isDigit = false ∧ last ≠ '\'' ∧ last ≠ '_' := by
  rw [Unsuffixed]
  cases name.toList.getLast? with
  | none => simp
  | some last => simp [isSuffixChar, and_assoc]

theorem toList_toString_ne_nil (n : Nat) : (toString n).toList ≠ [] := by
  rw [Nat.toString_eq_ofList_toDigits, String.toList_ofList]
  exact Nat.toDigits_ne_nil

theorem numbered_ne_self (base : String) (n : Nat) : Text.numbered base n ≠ base := by
  intro h
  have hchars : base.toList ++ (toString n).toList = base.toList := by
    rw [← String.toList_append]
    exact congrArg String.toList h
  exact toList_toString_ne_nil n (List.append_right_eq_self.mp hchars)

theorem not_unsuffixed_numbered (base : String) (n : Nat) :
    ¬ Unsuffixed (Text.numbered base n) := by
  have hne := toList_toString_ne_nil n
  have hdigit := isDigit_of_mem_toString (List.getLast_mem hne)
  rw [Unsuffixed, Text.numbered, String.toList_append, List.getLast?_append,
    List.getLast?_eq_some_getLast hne, Option.some_or, Option.any_some,
    isSuffixChar_of_isDigit hdigit]
  exact Bool.noConfusion

theorem baseName_numbered {base : String} (hne : base ≠ "") (h : Unsuffixed base) (n : Nat) :
    baseName (Text.numbered base n) = base := by
  have hkept : base.toList.reverse.dropWhile isSuffixChar = base.toList.reverse := by
    cases hrev : base.toList.reverse with
    | nil => rfl
    | cons c cs =>
      rw [Unsuffixed, List.getLast?_eq_head?_reverse, hrev] at h
      exact List.dropWhile_cons_of_neg (Bool.eq_false_iff.mp h)
  have hdigits : ∀ c ∈ (toString n).toList.reverse, isSuffixChar c = true := fun c hc =>
    isSuffixChar_of_isDigit (isDigit_of_mem_toString (List.mem_reverse.mp hc))
  rw [baseName, Text.numbered, String.toList_append, List.reverse_append,
    List.dropWhile_append_of_pos hdigits, hkept, List.reverse_reverse, if_neg, String.ofList_toList]
  exact fun he => hne (String.toList_eq_nil_iff.mp he)

theorem unsuffixed_baseName {name : String} (h : baseName name ≠ name) :
    baseName name ≠ "" ∧ Unsuffixed (baseName name) := by
  rw [baseName] at h ⊢
  split at h
  · exact absurd rfl h
  rename_i hkept
  rw [if_neg hkept]
  refine ⟨fun he => hkept (String.ofList_eq_empty_iff.mp he), ?_⟩
  have hhead := List.head?_dropWhile_not isSuffixChar name.toList.reverse
  rw [Unsuffixed, String.toList_ofList, List.getLast?_reverse]
  cases hc : (name.toList.reverse.dropWhile isSuffixChar).head? with
  | none => rfl
  | some c =>
    rw [hc] at hhead
    exact hhead

/-- What a numbered name is named after is the name that was numbered, if that can be numbered. -/
theorem baseName_numbered_iff {base : String} {n : Nat} :
    baseName (Text.numbered base n) = base ↔ base ≠ "" ∧ Unsuffixed base := by
  constructor
  · intro h
    have hne : baseName (Text.numbered base n) ≠ Text.numbered base n := by
      rw [h]
      exact (numbered_ne_self base n).symm
    have hbase := unsuffixed_baseName hne
    rwa [h] at hbase
  · rintro ⟨hne, hbase⟩
    exact baseName_numbered hne hbase n

theorem isWord_baseName {word : String} (h : IsWord word) : IsWord (baseName word) := by
  rw [baseName]
  split
  · exact h
  · rename_i hne
    refine ⟨fun he => hne (String.ofList_eq_empty_iff.mp he), fun c hc => h.2 c ?_⟩
    rw [String.toList_ofList, List.mem_reverse] at hc
    exact List.mem_reverse.mp ((List.dropWhile_sublist _).mem hc)

namespace Registry

variable {r r' : Registry}

/-- The symbol is written as a word that is read as the symbol. -/
def Readable (r : Registry) (s : Symbol) : Prop := IsWord s.text ∧ r.readSymbol s.text = s

instance (s : Symbol) : Decidable (r.Readable s) :=
  inferInstanceAs (Decidable (IsWord s.text ∧ r.readSymbol s.text = s))

/-- The form is read back from its text, places aside. -/
def ReadsBack (r : Registry) (f : Form) : Prop :=
  ∀ span, (r.readForm f.text span).symbols = f.symbols

theorem readForm_symbols (r : Registry) (text : String) (span : Span) :
    (r.readForm text span).symbols = (Text.words text).map r.readSymbol := by
  rw [readForm, Form.symbols, List.map_map]
  rfl

theorem text_readSymbol (r : Registry) (word : String) : (r.readSymbol word).text = word := by
  rw [readSymbol]
  split <;> rfl

theorem readable_readSymbol {word : String} (h : IsWord word) : r.Readable (r.readSymbol word) := by
  rw [Readable, text_readSymbol]
  exact ⟨h, rfl⟩

theorem readsBack_iff {f : Form} : r.ReadsBack f ↔ ∀ e ∈ f.elements, r.Readable e.val := by
  constructor
  · intro h e he
    have hmem : e.val ∈ f.symbols := List.mem_map_of_mem he
    have hread := h {}
    rw [readForm_symbols] at hread
    rw [← hread] at hmem
    obtain ⟨word, hword, hs⟩ := List.mem_map.mp hmem
    rw [← hs]
    exact readable_readSymbol (Text.isWord_of_mem_words hword)
  · intro h span
    have hsymbols : ∀ s ∈ f.symbols, r.Readable s := List.forall_mem_map.mpr h
    have hwords : ∀ word ∈ f.symbols.map Symbol.text, IsWord word :=
      List.forall_mem_map.mpr fun s hs => (hsymbols s hs).1
    rw [readForm_symbols, Form.text, Text.words_intercalate hwords, List.map_map]
    exact (List.map_congr_left fun s hs => (hsymbols s hs).2).trans (List.map_id _)

instance (f : Form) : Decidable (r.ReadsBack f) := decidable_of_iff _ readsBack_iff.symm

theorem readSymbol_congr (h : r'.categoryNames = r.categoryNames) (word : String) :
    r'.readSymbol word = r.readSymbol word := by
  simp only [readSymbol, categoryOfWord?, categoryId?, h]

theorem readable_congr (h : r'.categoryNames = r.categoryNames) {s : Symbol} :
    r'.Readable s ↔ r.Readable s := by
  rw [Readable, readSymbol_congr h, Readable]

theorem readsBack_congr (h : r'.categoryNames = r.categoryNames) {f : Form} :
    r'.ReadsBack f ↔ r.ReadsBack f := by
  simp only [readsBack_iff, readable_congr h]

theorem readSymbol_eq_terminal_iff {word : String} :
    r.readSymbol word = .terminal word ↔ r.categoryOfWord? word = none := by
  rw [readSymbol]
  split
  · rename_i h
    simp [h]
  · rename_i h
    simp [h]

theorem readSymbol_eq_nonterminal_iff {word : String} {v : Variable} :
    r.readSymbol word = .nonterminal v ↔
      word = v.name ∧ r.categoryOfWord? word = some v.category := by
  rw [readSymbol]
  split
  · rename_i category h
    rw [h]
    constructor
    · intro he
      cases he
      exact ⟨rfl, rfl⟩
    · rintro ⟨rfl, hc⟩
      cases hc
      rfl
  · rename_i h
    simp [h]

theorem map_category_readNonterminal? (r : Registry) (word : String) (span : Span) :
    (r.readNonterminal? word span).map (·.val.category) = r.categoryOfWord? word := by
  rw [readNonterminal?]
  cases r.categoryOfWord? word <;> rfl

theorem categoryOfWord?_of_mem_readForm {text : String} {span : Span} {v : Variable}
    (h : v ∈ variablesOf (r.readForm text span).elements) :
    r.categoryOfWord? v.name = some v.category := by
  rw [← Form.mem_symbols_nonterminal, readForm_symbols, List.mem_map] at h
  obtain ⟨word, _, hread⟩ := h
  obtain ⟨rfl, hcategory⟩ := readSymbol_eq_nonterminal_iff.mp hread
  exact hcategory

theorem exists_category_of_word (hr : r.Consistent) {word : String} {id : CategoryId}
    (h : r.categoryOfWord? word = some id) :
    ∃ c, r.category? id = some c ∧ (c.name = word ∨ c.name = baseName word) := by
  have hname : ∃ name, (name = word ∨ name = baseName word) ∧ r.categoryId? name = some id := by
    rw [categoryOfWord?] at h
    split at h
    · rename_i hid
      exact ⟨word, .inl rfl, hid.trans h⟩
    · exact ⟨_, .inr rfl, h⟩
  obtain ⟨name, hname, hid⟩ := hname
  obtain ⟨c, hc, rfl⟩ := Option.map_eq_some_iff.mp (hr.categoryId?_eq_some_iff.mp hid)
  exact ⟨c, hc, hname⟩

theorem Consistent.isSome_of_categoryOfWord? (hr : r.Consistent) {word : String} {id : CategoryId}
    (h : r.categoryOfWord? word = some id) : (r.category? id).isSome := by
  obtain ⟨c, hc, _⟩ := exists_category_of_word hr h
  exact Option.isSome_of_eq_some hc

theorem Consistent.declares_readForm (hr : r.Consistent) (text : String) (span : Span) :
    r.Declares (r.readForm text span) := by
  intro nt hnt
  have hv : nt.val ∈ variablesOf (r.readForm text span).elements := by
    rw [← Form.map_val_nonterminals]
    exact List.mem_map_of_mem hnt
  exact hr.isSome_of_categoryOfWord? (categoryOfWord?_of_mem_readForm hv)

theorem Readable.exists_category (hr : r.Consistent) {v : Variable}
    (h : r.Readable (.nonterminal v)) : ∃ c, r.category? v.category = some c ∧ IsWord c.name := by
  obtain ⟨hword, hread⟩ := h
  obtain ⟨_, hcategory⟩ := readSymbol_eq_nonterminal_iff.mp hread
  obtain ⟨c, hc, hname⟩ := exists_category_of_word hr hcategory
  refine ⟨c, hc, ?_⟩
  rcases hname with hname | hname
  · exact hname ▸ hword
  · exact hname ▸ isWord_baseName hword

/-- A numbered name is read as a variable over the category it was built on, unless the name of the
category is empty or ends like that of a numbered variable, or the whole name is taken by another
category. -/
theorem Consistent.categoryOfWord?_numbered_iff (hr : r.Consistent) {id : CategoryId} {c : Category}
    (hc : r.category? id = some c) (n : Nat) :
    r.categoryOfWord? (Text.numbered c.name n) = some id ↔
      c.name ≠ "" ∧ Unsuffixed c.name ∧ r.categoryId? (Text.numbered c.name n) = none := by
  have hnamed : ∀ name, r.categoryId? name = some id ↔ c.name = name := by
    intro name
    rw [hr.categoryId?_eq_some_iff, hc, Option.map_some, Option.some.injEq]
  cases hwhole : r.categoryId? (Text.numbered c.name n) with
  | some other =>
    have hother : other ≠ id := by
      rintro rfl
      exact numbered_ne_self c.name n ((hnamed _).mp hwhole).symm
    simp [categoryOfWord?, hwhole, hother]
  | none =>
    simp only [categoryOfWord?, hwhole, and_true]
    rw [hnamed, eq_comm, baseName_numbered_iff]

/-- A numbered variable over a category whose name is a word reads back: no category has its name,
and its base name is that of its category. -/
theorem Consistent.readable_numbered (hr : r.Consistent)
    (hnames : ∀ c ∈ r.categories, Unsuffixed c.name) {id : CategoryId} {c : Category}
    (hc : r.category? id = some c) (hword : IsWord c.name) (n : Nat) :
    r.Readable (.nonterminal ⟨Text.numbered c.name n, id⟩) := by
  have hmem : c ∈ r.categories := List.mem_of_getElem? hc
  have hnone : r.categoryId? (Text.numbered c.name n) = none := by
    refine hr.category_index.get?_eq_none_iff.mpr fun htaken => ?_
    obtain ⟨other, hother, hname⟩ := List.mem_map.mp htaken
    exact not_unsuffixed_numbered c.name n (hname ▸ hnames other hother)
  have hcategory : r.categoryOfWord? (Text.numbered c.name n) = some id :=
    (hr.categoryOfWord?_numbered_iff hc n).mpr ⟨hword.1, hnames c hmem, hnone⟩
  refine ⟨isWord_numbered hword n, ?_⟩
  rw [Symbol.text, readSymbol, hcategory]

/-- When a number after the name of a category makes a variable over it: the name is not empty, its
last character is not a digit, a prime or an underscore, and no category has the whole name. -/
theorem readNonterminal?_numbered_iff (hr : r.Reachable) {id : CategoryId} {c : Category}
    (hc : r.category? id = some c) (n : Nat) (span : Span) :
    (r.readNonterminal? (Text.numbered c.name n) span).map (·.val.category) = some id ↔
      c.name ≠ "" ∧
      (∀ last, c.name.toList.getLast? = some last →
        last.isDigit = false ∧ last ≠ '\'' ∧ last ≠ '_') ∧
      r.categoryNamed? (Text.numbered c.name n) = none := by
  rw [map_category_readNonterminal?, ← unsuffixed_iff,
    hr.consistent.categoryOfWord?_numbered_iff hc n, ← hr.consistent.categoryNamed?_map_id,
    Option.map_eq_none_iff]

/-- Of these categories only `e` can be numbered, and not with 1, which is a category of its own. -/
theorem readNonterminal?_numbered_iff_sample : ∃ r : Registry, r.Reachable ∧
    r.categories.map (·.name) = ["e", "e1", "x'", "_", "42", ""] ∧
    (r.readNonterminal? "e12" {}).map (·.val.category) = some ⟨0⟩ ∧
    (r.readNonterminal? "e1" {}).map (·.val.category) ≠ some ⟨0⟩ ∧
    (r.readNonterminal? "x'1" {}).map (·.val.category) ≠ some ⟨2⟩ ∧
    (r.readNonterminal? "_1" {}).map (·.val.category) ≠ some ⟨3⟩ ∧
    (r.readNonterminal? "421" {}).map (·.val.category) ≠ some ⟨4⟩ ∧
    (r.readNonterminal? "1" {}).map (·.val.category) ≠ some ⟨5⟩ := by
  let names := ["e", "e1", "x'", "_", "42", ""]
  let r := Registry.empty.run (names.map fun name => .addCategory name false {})
  have hr : r.Reachable := ⟨_, rfl⟩
  have hiff (i n : Nat) (c : Category) (hc : r.category? ⟨i⟩ = some c) :=
    readNonterminal?_numbered_iff hr hc n {}
  refine ⟨r, hr, by decide +kernel, ?_, ?_, ?_, ?_, ?_, ?_⟩
  · exact (hiff 0 12 ⟨⟨0⟩, "e", false, {}⟩ rfl).mpr
      ⟨by decide, unsuffixed_iff.mp (by decide +kernel), by decide +kernel⟩
  · intro h
    obtain ⟨_, _, hfree⟩ := (hiff 0 1 ⟨⟨0⟩, "e", false, {}⟩ rfl).mp h
    exact absurd hfree (by decide +kernel)
  · intro h
    obtain ⟨_, hlast, _⟩ := (hiff 2 1 ⟨⟨2⟩, "x'", false, {}⟩ rfl).mp h
    exact absurd (unsuffixed_iff.mpr hlast) (by decide +kernel)
  · intro h
    obtain ⟨_, hlast, _⟩ := (hiff 3 1 ⟨⟨3⟩, "_", false, {}⟩ rfl).mp h
    exact absurd (unsuffixed_iff.mpr hlast) (by decide +kernel)
  · intro h
    obtain ⟨_, hlast, _⟩ := (hiff 4 1 ⟨⟨4⟩, "42", false, {}⟩ rfl).mp h
    exact absurd (unsuffixed_iff.mpr hlast) (by decide +kernel)
  · intro h
    obtain ⟨hne, _⟩ := (hiff 5 1 ⟨⟨5⟩, "", false, {}⟩ rfl).mp h
    exact hne rfl

/-! ## Texts -/

theorem readForm_append (r : Registry) {blanks : String} (hne : blanks ≠ "")
    (h : ∀ c ∈ blanks.toList, Text.isBlank c = true) (a b : String) (span : Span) :
    (r.readForm (a ++ blanks ++ b) span).elements =
      (r.readForm a span).elements ++ (r.readForm b span).elements := by
  simp only [readForm, Text.words_append hne h, List.map_append]

theorem text_readForm (r : Registry) (a : String) (span : Span) :
    (r.readForm a span).text = String.intercalate " " (Text.words a) := by
  rw [Form.text, readForm_symbols, List.map_map]
  congr 1
  exact (List.map_congr_left fun word _ => r.text_readSymbol word).trans (List.map_id _)

theorem readForm_text_readForm (r : Registry) (a : String) (span span' : Span) :
    r.readForm (r.readForm a span).text span' = r.readForm a span' := by
  have hwords : Text.words (r.readForm a span).text = Text.words a := by
    rw [text_readForm, Text.words_intercalate fun _ => Text.isWord_of_mem_words]
  rw [readForm, hwords, readForm]

/-- Whatever the table: texts with any blanks between them are read one after the other; a form that
is read is written as the words of its text, which are determined by the blanks around them, with
single spaces between them; and what is written is read as the form again, with the same symbols at
any place and as the same form at the same place. -/
theorem readForm_normal_form (r : Registry) (span : Span) :
    (∀ a blanks b : String, blanks ≠ "" → (∀ c ∈ blanks.toList, Text.isBlank c = true) →
      (r.readForm (a ++ blanks ++ b) span).elements =
        (r.readForm a span).elements ++ (r.readForm b span).elements) ∧
    (∀ a : String, ∃ ws, (∀ ws', Text.SplitsInto a.toList ws' ↔ ws' = ws) ∧
      (r.readForm a span).text = String.intercalate " " ws) ∧
    (∀ a : String, r.readForm (r.readForm a span).text span = r.readForm a span) ∧
    ∀ (a : String) (span' : Span),
      (r.readForm (r.readForm a span).text span').symbols = (r.readForm a span).symbols := by
  refine ⟨fun a blanks b hne h => r.readForm_append hne h a b span, fun a => ?_,
    fun a => r.readForm_text_readForm a span span, fun a span' => ?_⟩
  · exact ⟨Text.words a, fun _ => Text.splitsInto_iff, r.text_readForm a span⟩
  · rw [readForm_text_readForm, readForm_symbols, readForm_symbols]

/-- A text with blanks of several kinds at its ends and between its words, one of which holds a
zero-width space, which is not blank. -/
theorem readForm_normal_form_sample : ∃ a blanks b : String, sample.Reachable ∧ blanks ≠ "" ∧
    (∀ c ∈ blanks.toList, Text.isBlank c = true) ∧
    (sample.readForm (a ++ blanks ++ b) {}).symbols =
      [.nonterminal ⟨"e1", ⟨1⟩⟩, .terminal "|-\u200b", .nonterminal ⟨"tau", ⟨2⟩⟩] ∧
    (sample.readForm (a ++ blanks ++ b) {}).elements =
      (sample.readForm a {}).elements ++ (sample.readForm b {}).elements ∧
    (sample.readForm a {}).text = "e1 |-\u200b" ∧
    sample.readForm (sample.readForm a {}).text {} = sample.readForm a {} := by
  let a := "\u00a0e1\t\u2003|-\u200b\u3000"
  let blanks := "\u0085\n\u2028"
  have hblanks : ∀ c ∈ blanks.toList, Text.isBlank c = true :=
    List.all_eq_true.mp (by decide +kernel)
  obtain ⟨happend, _, hagain, _⟩ := sample.readForm_normal_form {}
  exact ⟨a, blanks, " tau ", sample_reachable, by decide, hblanks, by decide +kernel,
    happend a blanks " tau " (by decide) hblanks, by decide +kernel, hagain a⟩

end Registry
end Inference
