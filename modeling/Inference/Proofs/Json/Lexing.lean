import Inference.Json.Token
import Inference.Proofs.Json.Scalar

/-!
# Inference.Proofs.Json.Lexing

The tokens of a JSON text, and how values are passed over. Every value of the grammar is read as
tokens that do not depend on the text around it, and these take the reader that passes over values
from the start of the value to its end, whichever brackets are open.

* `Lexes`, `LexesAs`: a text and its tokens, by itself and as a part of a longer text.
* `Skips`: the tokens that are passed over between two states.
* `PassedOver`: the value that the tokens spell, passed over whichever brackets are open.
* `Written.exists_tokens`: both for the phrases of the grammar.
-/

namespace Inference
namespace Json

open Grammar

/-- The text is read as the tokens, with any fuel that its length allows. -/
def Lexes (cs : List Char) (ts : List Token) : Prop :=
  ∀ fuel, cs.length ≤ fuel → Token.readWithin fuel cs = ts

theorem Lexes.readAll_eq {cs : List Char} {ts : List Token} (h : Lexes cs ts) :
    Token.readAll cs = ts := h cs.length (Nat.le_refl _)

theorem lexes_nil : Lexes [] [] := by
  intro fuel _
  cases fuel with
  | zero => rfl
  | succ fuel => rfl

theorem isLayout_iff {c : Char} : isLayout c = true ↔ c ∈ [' ', '\t', '\n', '\r'] := by
  simp [isLayout, or_assoc]

theorem lexes_layout {ws rest : List Char} {ts : List Token} (hws : Layout ws)
    (h : Lexes rest ts) : Lexes (ws ++ rest) ts := by
  intro fuel hfuel
  have hdrop : (ws ++ rest).dropWhile isLayout = rest.dropWhile isLayout :=
    List.dropWhile_append_of_pos fun c hc => isLayout_iff.mpr (hws c hc)
  have hrest : rest.length ≤ fuel := by
    rw [List.length_append] at hfuel
    omega
  rw [← h fuel hrest]
  cases fuel with
  | zero => rfl
  | succ fuel => rw [Token.readWithin, Token.readWithin, hdrop]

theorem lexes_cons {c : Char} {cs rest : List Char} {t : Token} {ts : List Token}
    (hc : isLayout c = false) (hread : Token.read? (c :: cs) = some (t, rest))
    (hlength : rest.length ≤ cs.length) (h : Lexes rest ts) : Lexes (c :: cs) (t :: ts) := by
  intro fuel hfuel
  cases fuel with
  | zero => cases hfuel
  | succ fuel =>
    have hrest : rest.length ≤ fuel := Nat.le_trans hlength (Nat.le_of_succ_le_succ hfuel)
    have hdrop : (c :: cs).dropWhile isLayout = c :: cs := by simp [hc]
    rw [Token.readWithin, hdrop]
    simp only [hread, h fuel hrest]

/-- The text is read as the tokens in front of anything but the rest of a number. -/
def LexesAs (cs : List Char) (ts : List Token) : Prop :=
  ∀ rest us, Boundary rest → Lexes rest us → Lexes (cs ++ rest) (ts ++ us)

theorem LexesAs.lexes {cs : List Char} {ts : List Token} (h : LexesAs cs ts) : Lexes cs ts := by
  have hend := h [] [] boundary_nil lexes_nil
  rwa [List.append_nil, List.append_nil] at hend

theorem LexesAs.nil : LexesAs [] [] := fun _ _ _ h => h

/-- The characters that are tokens by themselves. -/
inductive Structural : Char → Token → Prop where
  | beginsArray : Structural '[' (.begins .array)
  | endsArray : Structural ']' (.ends .array)
  | beginsObject : Structural '\x7b' (.begins .object)
  | endsObject : Structural '\x7d' (.ends .object)
  | comma : Structural ',' .comma
  | colon : Structural ':' .colon

theorem lexes_structural {c : Char} {t : Token} (hc : Structural c t) {rest : List Char}
    {ts : List Token} (h : Lexes rest ts) : Lexes (c :: rest) (t :: ts) := by
  cases hc <;> exact lexes_cons (by decide) rfl (Nat.le_refl _) h

theorem boundary_structural {c : Char} {t : Token} (hc : Structural c t) (cs : List Char) :
    Boundary (c :: cs) := by
  cases hc <;> exact boundary_cons (by decide) cs

theorem boundary_layout {ws rest : List Char} (hws : Layout ws) (h : Boundary rest) :
    Boundary (ws ++ rest) := by
  cases ws with
  | nil => exact h
  | cons c ws =>
    have hc := hws c (List.mem_cons_self ..)
    simp only [List.mem_cons, List.not_mem_nil, or_false] at hc
    rcases hc with rfl | rfl | rfl | rfl <;> exact boundary_cons (by decide) _

/-- Two texts with a structural character between them. -/
theorem LexesAs.structural {cs cs' : List Char} {ts ts' : List Token} (h : LexesAs cs ts)
    {c : Char} {t : Token} (hc : Structural c t) (h' : LexesAs cs' ts') :
    LexesAs (cs ++ c :: cs') (ts ++ t :: ts') := by
  intro rest us hrest hlexes
  rw [List.append_assoc, List.append_assoc]
  exact h _ _ (boundary_structural hc _) (lexes_structural hc (h' rest us hrest hlexes))

theorem LexesAs.enclosed {cs : List Char} {ts : List Token} (h : LexesAs cs ts) {c c' : Char}
    {t t' : Token} (hc : Structural c t) (hc' : Structural c' t') :
    LexesAs (c :: (cs ++ [c'])) (t :: (ts ++ [t'])) :=
  LexesAs.nil.structural hc (h.structural hc' .nil)

theorem LexesAs.padded {ws cs ws' : List Char} {ts : List Token} (hws : Layout ws)
    (h : LexesAs cs ts) (hws' : Layout ws') : LexesAs (ws ++ (cs ++ ws')) ts := by
  intro rest us hrest hlexes
  rw [List.append_assoc, List.append_assoc]
  exact lexes_layout hws (h _ us (boundary_layout hws' hrest) (lexes_layout hws' hlexes))

theorem LexesAs.layout {ws : List Char} (hws : Layout ws) : LexesAs ws [] :=
  fun _ _ _ h => lexes_layout hws h

theorem lexesAs_token {c : Char} {cs : List Char} {t : Token} (hc : isLayout c = false)
    (hread : ∀ rest, Boundary rest → Token.read? (c :: (cs ++ rest)) = some (t, rest)) :
    LexesAs (c :: cs) [t] := by
  intro rest us hrest hlexes
  have hlength : rest.length ≤ (cs ++ rest).length := by simp
  exact lexes_cons hc (hread rest hrest) hlength hlexes

theorem lexesAs_string {cs : List Char} {pieces : List Piece} (h : ReadsAs cs pieces) :
    LexesAs ('"' :: (cs ++ ['"'])) [.text pieces] := by
  refine lexesAs_token (by decide) fun rest _ => ?_
  have hpieces := h rest
  rw [List.append_assoc, Token.read?]
  simp only [List.cons_append, List.nil_append, hpieces]

theorem read?_number {c : Char} (hc : c = '-' ∨ c.isDigit) {cs rest : List Char} {n : Numeral}
    (h : Numeral.read? (c :: cs) = some (n, rest)) :
    Token.read? (c :: cs) = some (.number n, rest) := by
  rw [Token.read?.eq_def]
  split
  case h_11 => rw [h]
  all_goals
    rename_i heq
    cases heq
    simp at hc

theorem lexesAs_number {cs : List Char} (h : IsNumber cs) : ∃ n, LexesAs cs [.number n] := by
  obtain ⟨n, hread⟩ := Numeral.exists_read? h
  obtain ⟨d, ds, rfl, hd⟩ := h.exists_cons
  have hlayout : isLayout d = false := by
    rw [← Bool.not_eq_true, isLayout_iff]
    intro hmem
    simp only [List.mem_cons, List.not_mem_nil, or_false] at hmem
    rcases hmem with rfl | rfl | rfl | rfl <;> revert hd <;> decide
  exact ⟨n, lexesAs_token hlayout fun rest hrest => read?_number hd (hread rest hrest)⟩

/-! ## Passing over values -/

/-- The tokens lead from the state to the result. -/
inductive Skips : Skipping → List Token → Skipped → Prop where
  | none {s : Skipping} : Skips s [] (.partly s)
  | last {s : Skipping} {t : Token} : s.step t = some .whole → Skips s [t] .whole
  | step {s s' : Skipping} {t : Token} {ts : List Token} {r : Skipped} :
      s.step t = some (.partly s') → Skips s' ts r → Skips s (t :: ts) r

theorem Skips.append {s s' : Skipping} {ts us : List Token} {r : Skipped}
    (h : Skips s ts (.partly s')) (h' : Skips s' us r) : Skips s (ts ++ us) r := by
  generalize hp : Skipped.partly s' = p at h
  induction h with
  | none =>
    cases hp
    exact h'
  | last _ => cases hp
  | step hstep _ ih => exact .step hstep (ih hp)

theorem skips_token {s : Skipping} {t : Token} {r : Skipped} (h : s.step t = some r) :
    Skips s [t] r := by
  cases r with
  | whole => exact .last h
  | partly s' => exact .step h .none

/-- The tokens are passed over wherever such a phrase may stand. -/
def PassedOver : Phrase → List Token → Prop
  | .value, ts | .element, ts => ∀ opened, ∀ expect ∈ [Expect.value, .firstItem],
    Skips ⟨opened, expect⟩ ts (Skipping.valueEnded opened)
  | .elements, ts => ∀ opened, ∀ expect ∈ [Expect.value, .firstItem],
    Skips ⟨.array :: opened, expect⟩ ts (.partly ⟨.array :: opened, .next⟩)
  | .member, ts | .members, ts => ∀ opened, ∀ expect ∈ [Expect.key, .firstKey],
    Skips ⟨.object :: opened, expect⟩ ts (.partly ⟨.object :: opened, .next⟩)

theorem passedOver_scalar {t : Token}
    (ht : ∀ opened, Skipping.startValue opened t = some (Skipping.valueEnded opened)) :
    PassedOver .value [t] := by
  intro opened expect hexpect
  simp only [List.mem_cons, List.not_mem_nil, or_false] at hexpect
  rcases hexpect with rfl | rfl
  · exact skips_token (ht opened)
  · have hstep : Skipping.step ⟨opened, .firstItem⟩ t = Skipping.startValue opened t := by
      cases t with
      | ends b => cases ht opened
      | _ => rfl
    exact skips_token (hstep.trans (ht opened))

/-- What may come first inside a bracket. -/
def Bracket.first : Bracket → Expect
  | .array => .firstItem
  | .object => .firstKey

theorem skips_empty (b : Bracket) (opened : List Bracket) :
    Skips ⟨b :: opened, b.first⟩ [.ends b] (Skipping.valueEnded opened) := by
  cases b <;> exact skips_token rfl

theorem skips_close {b : Bracket} {opened : List Bracket} {ts : List Token}
    (h : Skips ⟨b :: opened, b.first⟩ ts (.partly ⟨b :: opened, .next⟩)) :
    Skips ⟨b :: opened, b.first⟩ (ts ++ [.ends b]) (Skipping.valueEnded opened) := by
  have hclose : Skips ⟨b :: opened, .next⟩ [.ends b] (Skipping.valueEnded opened) := by
    cases b <;> exact skips_token rfl
  exact h.append hclose

theorem passedOver_bracket {b : Bracket} {ts : List Token}
    (h : ∀ opened, Skips ⟨b :: opened, b.first⟩ (ts ++ [.ends b]) (Skipping.valueEnded opened)) :
    PassedOver .value (.begins b :: (ts ++ [.ends b])) := by
  intro opened expect hexpect
  simp only [List.mem_cons, List.not_mem_nil, or_false] at hexpect
  rcases hexpect with rfl | rfl
  · cases b <;> exact .step rfl (h opened)
  · cases b <;> exact .step rfl (h opened)

/-- Every phrase is read as tokens that are passed over. -/
theorem Grammar.Written.exists_tokens {phrase : Phrase} {cs : List Char} (h : Written phrase cs) :
    ∃ ts, LexesAs cs ts ∧ PassedOver phrase ts := by
  induction h with
  | literal hcs =>
    simp only [List.mem_cons, List.not_mem_nil, or_false] at hcs
    rcases hcs with rfl | rfl | rfl
    · exact ⟨_, lexesAs_token (by decide) fun _ _ => rfl, passedOver_scalar fun _ => rfl⟩
    · exact ⟨_, lexesAs_token (by decide) fun _ _ => rfl, passedOver_scalar fun _ => rfl⟩
    · exact ⟨_, lexesAs_token (by decide) fun _ _ => rfl, passedOver_scalar fun _ => rfl⟩
  | number hcs =>
    obtain ⟨n, hlexes⟩ := lexesAs_number hcs
    exact ⟨_, hlexes, passedOver_scalar fun _ => rfl⟩
  | string hcs =>
    obtain ⟨pieces, hread⟩ := hcs.exists_pieces
    exact ⟨_, lexesAs_string hread, passedOver_scalar fun _ => rfl⟩
  | emptyArray hws =>
    exact ⟨_, (LexesAs.layout hws).enclosed .beginsArray .endsArray,
      passedOver_bracket (skips_empty .array)⟩
  | array _ ih =>
    obtain ⟨ts, hlexes, hpass⟩ := ih
    refine ⟨_, hlexes.enclosed .beginsArray .endsArray, passedOver_bracket fun opened => ?_⟩
    exact skips_close (hpass opened .firstItem (by decide))
  | emptyObject hws =>
    exact ⟨_, (LexesAs.layout hws).enclosed .beginsObject .endsObject,
      passedOver_bracket (skips_empty .object)⟩
  | object _ ih =>
    obtain ⟨ts, hlexes, hpass⟩ := ih
    refine ⟨_, hlexes.enclosed .beginsObject .endsObject, passedOver_bracket fun opened => ?_⟩
    exact skips_close (hpass opened .firstKey (by decide))
  | element hws _ hws' ih =>
    obtain ⟨ts, hlexes, hpass⟩ := ih
    exact ⟨ts, hlexes.padded hws hws', hpass⟩
  | lastElement _ ih =>
    obtain ⟨ts, hlexes, hpass⟩ := ih
    exact ⟨ts, hlexes, fun opened => hpass (.array :: opened)⟩
  | elements _ _ ih ihmore =>
    obtain ⟨ts, hlexes, hpass⟩ := ih
    obtain ⟨us, hlexes', hpass'⟩ := ihmore
    refine ⟨_, hlexes.structural .comma hlexes', fun opened expect hexpect => ?_⟩
    exact (hpass (.array :: opened) expect hexpect).append
      (.step rfl (hpass' opened .value (by decide)))
  | member hws hkey hws' _ ih =>
    obtain ⟨pieces, hread⟩ := hkey.exists_pieces
    obtain ⟨ts, hlexes, hpass⟩ := ih
    refine ⟨_, ((lexesAs_string hread).padded hws hws').structural .colon hlexes, ?_⟩
    intro opened expect hexpect
    have hvalue := hpass (.object :: opened) .value (by decide)
    simp only [List.mem_cons, List.not_mem_nil, or_false] at hexpect
    rcases hexpect with rfl | rfl
    · exact .step rfl (.step rfl hvalue)
    · exact .step rfl (.step rfl hvalue)
  | lastMember _ ih =>
    obtain ⟨ts, hlexes, hpass⟩ := ih
    exact ⟨ts, hlexes, hpass⟩
  | members _ _ ih ihmore =>
    obtain ⟨ts, hlexes, hpass⟩ := ih
    obtain ⟨us, hlexes', hpass'⟩ := ihmore
    refine ⟨_, hlexes.structural .comma hlexes', fun opened expect hexpect => ?_⟩
    exact (hpass opened expect hexpect).append (.step rfl (hpass' opened .key (by decide)))

end Json
end Inference
