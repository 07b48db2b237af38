import Inference.Proofs.Registry.Declared
import Inference.Proofs.Registry.Extends

/-!
# Inference.Proofs.Registry.Spelling

Forms are spelled with words. A program declares its forms as texts, so their symbols are the words
of these texts. It may well declare a category whose name is empty or holds a blank, but no word is
read as a variable over it, and so the numbered variables that take the place of those in its forms
are words too.

* `Spelled`: a symbol that is a word, and whose category has a name that is one.
* `Readable.spelled`, `Spelled.renamed`: what is read from a word, and what that is renamed to.
* `Spells`: all symbols of a form are so.
* `Spells.length_text`: the text of such a form falls into as many pieces as it has elements.
* `SpellsForms`: all forms in the table are spelled with words; `SpellsForms.declare`, after a
  declaration, and `spellsForms_ofDeclarations`, in the table of a program.
-/

namespace Inference

open Text (IsWord)

namespace Registry

variable {r r' : Registry}

/-- The symbol is written as a word, and so is the category it is over, if it is a variable. -/
structure Spelled (r : Registry) (s : Symbol) : Prop where
  word : IsWord s.text
  category : ∀ v, s = .nonterminal v → ∃ c, r.category? v.category = some c ∧ IsWord c.name

theorem spelled_terminal {token : String} (h : IsWord token) : r.Spelled (.terminal token) where
  word := h
  category _ hv := by cases hv

theorem Readable.spelled {s : Symbol} (h : r.Readable s) (hr : r.Consistent) : r.Spelled s where
  word := h.1
  category := by
    rintro v rfl
    exact h.exists_category hr

theorem Spelled.renamed {v : Variable} (h : r.Spelled (.nonterminal v)) (n : Nat) :
    r.Spelled (.nonterminal ⟨Text.numbered (r.freshBase v) n, v.category⟩) := by
  obtain ⟨c, hc, hword⟩ := h.category v rfl
  refine ⟨?_, ?_⟩
  · rw [Symbol.text, freshBase_of_category? hc]
    exact isWord_numbered hword n
  · rintro _ ⟨⟩
    exact ⟨c, hc, hword⟩

theorem Spelled.of_extends {s : Symbol} (h : r.Spelled s) (he : r.Extends r') : r'.Spelled s where
  word := h.word
  category v hv := by
    obtain ⟨c, hc, hword⟩ := h.category v hv
    exact ⟨c, he.category? hc, hword⟩

def Spells (r : Registry) (f : Form) : Prop := ∀ e ∈ f.elements, r.Spelled e.val

def SpellsForms (r : Registry) : Prop := ∀ p ∈ r.productions, r.Spells p.form

theorem Spells.isWord {f : Form} (h : r.Spells f) : ∀ s ∈ f.symbols, IsWord s.text :=
  List.forall_mem_map.mpr fun e he => (h e he).word

/-- The text of the form has one word for each element, and single spaces between the words. -/
theorem Spells.length_text {f : Form} (h : r.Spells f) :
    (if f.text = "" then 0 else (f.text.toList.splitOn ' ').length) = f.length := by
  have hwords : ∀ word ∈ f.symbols.map Symbol.text, IsWord word :=
    List.forall_mem_map.mpr h.isWord
  have hlength : (f.symbols.map Symbol.text).length = f.length := by
    rw [List.length_map, Form.symbols, List.length_map, Form.length]
  split
  · rename_i hempty
    rw [← hlength, (Text.intercalate_eq_empty_iff hwords).mp hempty, List.length_nil]
  · rename_i hne
    have hnot : f.symbols.map Symbol.text ≠ [] :=
      fun hnil => hne ((Text.intercalate_eq_empty_iff hwords).mpr hnil)
    rw [Form.text, Text.splitOn_intercalate hnot hwords, List.length_map, hlength]

theorem Spells.of_extends {f : Form} (h : r.Spells f) (he : r.Extends r') : r'.Spells f :=
  fun e hmem => (h e hmem).of_extends he

theorem Consistent.spells_readForm (hr : r.Consistent) (text : String) (span : Span) :
    r.Spells (r.readForm text span) := by
  refine List.forall_mem_map.mpr fun word hword => ?_
  exact (readable_readSymbol (Text.isWord_of_mem_words hword)).spelled hr

theorem SpellsForms.formOf? (h : r.SpellsForms) {judgment : JudgmentId} {form : Form}
    (hform : r.formOf? judgment = some form) : r.Spells form := by
  obtain ⟨p, hp, rfl⟩ := exists_production_of_formOf? hform
  exact h p hp

theorem SpellsForms.of_extends (h : r.SpellsForms) (he : r.Extends r')
    (hproductions : r'.productions = r.productions) : r'.SpellsForms := by
  intro p hp
  rw [hproductions] at hp
  exact (h p hp).of_extends he

/-- One more production, whose form is spelled with words. -/
theorem SpellsForms.append (h : r.SpellsForms) (he : r.Extends r') {p : Production}
    (hp : r.Spells p.form) (hproductions : r'.productions = r.productions ++ [p]) :
    r'.SpellsForms := by
  intro q hq
  rw [hproductions, List.mem_append, List.mem_singleton] at hq
  rcases hq with hq | rfl
  · exact (h q hq).of_extends he
  · exact hp.of_extends he

/-! ## Declarations -/

theorem SpellsForms.declare (h : r.SpellsForms) (hr : r.Consistent) (d : Declaration) :
    (r.declare d).1.SpellsForms := by
  have he := extends_of_steps (steps_declare r d)
  rcases hr.productions_declare d with hsame | ⟨p, text, span, hform, hadded⟩
  · exact h.of_extends he hsame
  · exact h.append he (hform ▸ hr.spells_readForm text span) hadded

theorem spellsForms_ofDeclarations {ds : List Declaration} (h : ofDeclarations ds = .ok r) :
    r.SpellsForms := by
  have hboth : r.Consistent ∧ r.SpellsForms := by
    refine holds_ofDeclarations (P := fun r => r.Consistent ∧ r.SpellsForms)
      ⟨consistent_empty, List.forall_mem_nil _⟩ (fun r d hr => ?_) h
    exact ⟨consistent_of_steps hr.1 (steps_declare r d), hr.2.declare hr.1 d⟩
  exact hboth.2

end Registry
end Inference
