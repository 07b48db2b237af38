import Inference.Json.Numeral
import Inference.Json.Text
import Inference.Proofs.Json.Grammar
import Mathlib.Data.List.Basic

/-!
# Inference.Proofs.Json.Scalar

Strings and numbers, read and written. A string of the grammar is read up to its closing quote, and
decodes to the text it stands for; encoding a text gives a string that stands for it. A number of
the grammar is read whole when nothing after it can be taken for a part of it.

* `Quoted.exists_pieces`, `Spells.exists_pieces`: strings are read.
* `isString_encode`: what encoding writes.
* `Boundary`, `Numeral.exists_read?`: numbers are read.
-/

namespace Inference
namespace Json

open Grammar

theorem Grammar.HexDigit.lt {c : Char} {n : Nat} (h : HexDigit c n) : n < 16 := by
  rcases h with h | h
  · exact (List.getElem?_eq_some_iff.mp h).1
  · exact (List.getElem?_eq_some_iff.mp h).1

theorem hexDigit?_lowerHex : ∀ n : Fin 16, hexDigit? (lowerHex.get n) = some n.val := by decide

theorem hexDigit?_upperHex : ∀ n : Fin 16, hexDigit? (upperHex.get n) = some n.val := by decide

theorem hexDigit?_eq {c : Char} {n : Nat} (h : HexDigit c n) : hexDigit? c = some n := by
  rcases h with h | h
  · obtain ⟨hn, rfl⟩ := List.getElem?_eq_some_iff.mp h
    exact hexDigit?_lowerHex ⟨n, hn⟩
  · obtain ⟨hn, rfl⟩ := List.getElem?_eq_some_iff.mp h
    exact hexDigit?_upperHex ⟨n, hn⟩

theorem Grammar.HexUnit.lt {ds : List Char} {n : Nat} (h : HexUnit ds n) : n < 0x10000 := by
  cases h with
  | digits ha hb hc hd =>
    have := ha.lt
    have := hb.lt
    have := hc.lt
    have := hd.lt
    omega

theorem exists_hexUnit? {ds : List Char} {n : Nat} (h : HexUnit ds n) :
    ∃ a b c d, ds = [a, b, c, d] ∧ hexUnit? a b c d = some n := by
  cases h with
  | @digits a b c d i j k l ha hb hc hd =>
    refine ⟨a, b, c, d, rfl, ?_⟩
    rw [hexUnit?, hexDigit?_eq ha, hexDigit?_eq hb, hexDigit?_eq hc, hexDigit?_eq hd]
    simp only [Option.some.injEq]
    omega

/-- Control characters are written with two zeros in front. -/
theorem hexUnit_fourHexDigits {n : Nat} (hn : n < 0x20) : HexUnit (fourHexDigits n) n := by
  have hdigits : ∀ m : Fin 0x20,
      fourHexDigits m.val =
        ['0', '0', lowerHex.getD (m.val / 16) '0', lowerHex.getD (m.val % 16) '0'] ∧
      lowerHex[m.val / 16]? = some (lowerHex.getD (m.val / 16) '0') ∧
      lowerHex[m.val % 16]? = some (lowerHex.getD (m.val % 16) '0') := by
    decide +kernel
  obtain ⟨hfour, hc, hd⟩ := hdigits ⟨n, hn⟩
  have hunit := HexUnit.digits (.inl rfl : HexDigit '0' 0) (.inl rfl : HexDigit '0' 0) (.inl hc)
    (.inl hd)
  have hvalue : 0 * 0x1000 + 0 * 0x100 + n / 16 * 0x10 + n % 16 = n := by omega
  rw [hvalue] at hunit
  exact hfour ▸ hunit

theorem readPieces?_plain {c : Char} (h : Plain c) (cs : List Char) :
    readPieces? (c :: cs) = consPiece (.char c) (readPieces? cs) := by
  obtain ⟨hcontrol, _, hbackslash⟩ := h
  have hlt : ¬ c.toNat < 0x20 := Nat.not_lt.mpr hcontrol
  simp [readPieces?, hbackslash, hlt]

theorem readPieces?_short {e c : Char} (h : (e, c) ∈ shortEscapes) (cs : List Char) :
    readPieces? ('\\' :: e :: cs) = consPiece (.char c) (readPieces? cs) := by
  simp only [shortEscapes, List.mem_cons, Prod.mk.injEq, List.not_mem_nil, or_false] at h
  rcases h with ⟨rfl, rfl⟩ | ⟨rfl, rfl⟩ | ⟨rfl, rfl⟩ | ⟨rfl, rfl⟩ | ⟨rfl, rfl⟩ | ⟨rfl, rfl⟩ |
    ⟨rfl, rfl⟩ | ⟨rfl, rfl⟩ <;> simp [readPieces?, escaped?]

theorem readPieces?_unit {ds : List Char} {n : Nat} (h : HexUnit ds n) (cs : List Char) :
    readPieces? ('\\' :: 'u' :: (ds ++ cs)) = consPiece (.unit n) (readPieces? cs) := by
  obtain ⟨a, b, c, d, rfl, hunit⟩ := exists_hexUnit? h
  simp [readPieces?, hunit]

/-- The inside of a string and its closing quote are read as the pieces. -/
def ReadsAs (cs : List Char) (pieces : List Piece) : Prop :=
  ∀ rest, readPieces? (cs ++ '"' :: rest) = some (pieces, rest)

theorem ReadsAs.nil : ReadsAs [] [] := by
  intro rest
  simp [readPieces?]

theorem ReadsAs.plain {c : Char} {cs : List Char} {pieces : List Piece} (hc : Plain c)
    (h : ReadsAs cs pieces) : ReadsAs (c :: cs) (.char c :: pieces) := by
  intro rest
  rw [List.cons_append, readPieces?_plain hc, h rest, consPiece]

theorem ReadsAs.short {e c : Char} {cs : List Char} {pieces : List Piece}
    (he : (e, c) ∈ shortEscapes) (h : ReadsAs cs pieces) :
    ReadsAs ('\\' :: e :: cs) (.char c :: pieces) := by
  intro rest
  rw [List.cons_append, List.cons_append, readPieces?_short he, h rest, consPiece]

theorem ReadsAs.unit {ds cs : List Char} {n : Nat} {pieces : List Piece} (hds : HexUnit ds n)
    (h : ReadsAs cs pieces) : ReadsAs ('\\' :: 'u' :: (ds ++ cs)) (.unit n :: pieces) := by
  intro rest
  rw [List.cons_append, List.cons_append, List.append_assoc, readPieces?_unit hds, h rest,
    consPiece]

theorem Grammar.Quoted.exists_pieces {cs : List Char} (h : Quoted cs) :
    ∃ pieces, ReadsAs cs pieces := by
  induction h with
  | nil => exact ⟨[], .nil⟩
  | plain hc _ ih =>
    obtain ⟨pieces, ih⟩ := ih
    exact ⟨_, ih.plain hc⟩
  | short he _ ih =>
    obtain ⟨pieces, ih⟩ := ih
    exact ⟨_, ih.short he⟩
  | unit hds _ ih =>
    obtain ⟨pieces, ih⟩ := ih
    exact ⟨_, ih.unit hds⟩

theorem decodeChars?_char (c : Char) (pieces : List Piece) :
    decodeChars? (.char c :: pieces) = (decodeChars? pieces).map (c :: ·) := by
  rw [decodeChars?]

/-- A character of one unit is no surrogate. -/
theorem decodeChars?_unit {c : Char} (hc : c.toNat < 0x10000) (pieces : List Piece) :
    decodeChars? (.unit c.toNat :: pieces) = (decodeChars? pieces).map (c :: ·) := by
  have hvalid : c.toNat < 0xd800 ∨ 0xe000 ≤ c.toNat := by
    rcases c.valid with h | h
    · exact .inl h
    · exact .inr (Nat.lt_of_lt_of_le (by decide) h.1)
  have hlow : isLowSurrogate c.toNat = false := by
    simp [isLowSurrogate]
    omega
  have hhigh : isHighSurrogate c.toNat = false := by
    simp [isHighSurrogate]
    omega
  rw [decodeChars?.eq_def]
  simp only [hlow, hhigh, Bool.false_eq_true, if_false, Char.ofNat_toNat]

theorem decodeChars?_pair {c : Char} (hc : 0x10000 ≤ c.toNat) (pieces : List Piece) :
    decodeChars? (.unit (0xd800 + (c.toNat - 0x10000) / 0x400) ::
        .unit (0xdc00 + (c.toNat - 0x10000) % 0x400) :: pieces) =
      (decodeChars? pieces).map (c :: ·) := by
  have hlt : c.toNat < 0x110000 := by
    rcases c.valid with h | h
    · exact Nat.lt_trans h (by decide)
    · exact h.2
  have hnot : isLowSurrogate (0xd800 + (c.toNat - 0x10000) / 0x400) = false := by
    simp [isLowSurrogate]
    omega
  have hhigh : isHighSurrogate (0xd800 + (c.toNat - 0x10000) / 0x400) = true := by
    simp [isHighSurrogate]
    omega
  have hlow : isLowSurrogate (0xdc00 + (c.toNat - 0x10000) % 0x400) = true := by
    simp [isLowSurrogate]
    omega
  have hjoin : joinSurrogates (0xd800 + (c.toNat - 0x10000) / 0x400)
      (0xdc00 + (c.toNat - 0x10000) % 0x400) = c := by
    have hnat : 0x10000 + (0xd800 + (c.toNat - 0x10000) / 0x400 - 0xd800) * 0x400 +
        (0xdc00 + (c.toNat - 0x10000) % 0x400 - 0xdc00) = c.toNat := by omega
    rw [joinSurrogates, hnat, Char.ofNat_toNat]
  rw [decodeChars?, hnot, hhigh]
  simp only [hlow, hjoin, Bool.false_eq_true, if_false, if_true]

/-- A string that stands for a text is read as pieces that decode to it. -/
theorem Grammar.Spells.exists_pieces {cs s : List Char} (h : Spells cs s) :
    ∃ pieces, ReadsAs cs pieces ∧ decodeChars? pieces = some s := by
  induction h with
  | nil => exact ⟨[], .nil, rfl⟩
  | plain hc _ ih =>
    obtain ⟨pieces, hread, hdecode⟩ := ih
    exact ⟨_, hread.plain hc, by rw [decodeChars?_char, hdecode]; rfl⟩
  | short he _ ih =>
    obtain ⟨pieces, hread, hdecode⟩ := ih
    exact ⟨_, hread.short he, by rw [decodeChars?_char, hdecode]; rfl⟩
  | @unit c ds cs s hds _ ih =>
    obtain ⟨pieces, hread, hdecode⟩ := ih
    exact ⟨_, hread.unit hds, by rw [decodeChars?_unit hds.lt, hdecode]; rfl⟩
  | pair hc hhigh hlow _ ih =>
    obtain ⟨pieces, hread, hdecode⟩ := ih
    exact ⟨_, (hread.unit hlow).unit hhigh, by rw [decodeChars?_pair hc, hdecode]; rfl⟩

theorem spells_encodeChar (c : Char) {cs s : List Char} (h : Spells cs s) :
    Spells (encodeChar c ++ cs) (c :: s) := by
  rw [encodeChar.eq_def]
  split
  · exact .short (by decide) h
  · exact .short (by decide) h
  · exact .short (by decide) h
  · exact .short (by decide) h
  · exact .short (by decide) h
  · exact .short (by decide) h
  · exact .short (by decide) h
  · rename_i hquote hbackslash _ _ _ _ _
    by_cases hcontrol : c.toNat < 0x20
    · rw [if_pos hcontrol]
      exact .unit (hexUnit_fourHexDigits hcontrol) h
    · rw [if_neg hcontrol]
      exact .plain ⟨Nat.le_of_not_lt hcontrol, hquote, hbackslash⟩ h

theorem isString_encode (s : String) : IsString s (encode s) := by
  have hspells : ∀ cs : List Char, Spells (cs.flatMap encodeChar) cs := by
    intro cs
    induction cs with
    | nil => exact .nil
    | cons c cs ih => exact spells_encodeChar c ih
  exact .quoted (hspells s.toList)

/-! ## Numbers -/

/-- What comes after a number cannot be taken for a part of it. -/
def Boundary (rest : List Char) : Prop :=
  ∀ c cs, rest = c :: cs → c.isDigit = false ∧ c ≠ '.' ∧ c ≠ 'e' ∧ c ≠ 'E'

def NoDigit (rest : List Char) : Prop := ∀ c cs, rest = c :: cs → c.isDigit = false

theorem Boundary.noDigit {rest : List Char} (h : Boundary rest) : NoDigit rest :=
  fun c cs he => (h c cs he).1

theorem boundary_nil : Boundary [] := fun _ _ h => by cases h

theorem boundary_cons {c : Char} (h : c.isDigit = false ∧ c ≠ '.' ∧ c ≠ 'e' ∧ c ≠ 'E')
    (cs : List Char) : Boundary (c :: cs) := by
  intro d ds he
  cases he
  exact h

theorem Grammar.WholePart.exists_cons {whole : List Char} (h : WholePart whole) :
    ∃ d ds, whole = d :: ds ∧ d.isDigit := by
  cases h with
  | zero => exact ⟨_, _, rfl, rfl⟩
  | positive hds _ => exact ⟨_, _, rfl, hds _ (List.mem_cons_self ..)⟩

/-- A number starts with a digit or with a sign before one. -/
theorem Grammar.IsNumber.exists_cons {cs : List Char} (h : IsNumber cs) :
    ∃ d ds, cs = d :: ds ∧ (d = '-' ∨ d.isDigit) := by
  cases h with
  | signed hsign hwhole _ _ =>
    simp only [List.mem_cons, List.not_mem_nil, or_false] at hsign
    rcases hsign with rfl | rfl
    · obtain ⟨d, ds, rfl, hd⟩ := hwhole.exists_cons
      exact ⟨d, _, rfl, .inr hd⟩
    · exact ⟨'-', _, rfl, .inl rfl⟩

namespace Numeral

variable {ds rest : List Char}

theorem spanDigits_append (hds : Digits ds) (hrest : NoDigit rest) :
    spanDigits (ds ++ rest) = (ds, rest) := by
  have hstop : rest.takeWhile Char.isDigit = [] ∧ rest.dropWhile Char.isDigit = rest := by
    cases rest with
    | nil => exact ⟨rfl, rfl⟩
    | cons c cs =>
      have hc := hrest c cs rfl
      simp [hc]
  rw [spanDigits, List.takeWhile_append_of_pos hds, List.dropWhile_append_of_pos hds, hstop.1,
    hstop.2, List.append_nil]

theorem readWhole?_append {whole : List Char} (h : WholePart whole) (hrest : NoDigit rest) :
    readWhole? (whole ++ rest) = some (whole, rest) := by
  cases h with
  | zero =>
    have hzero : Digits ['0'] := by simp [Digits]
    rw [readWhole?, spanDigits_append hzero hrest]
    rfl
  | positive hds hd =>
    rw [readWhole?, spanDigits_append hds hrest]
    simp [hd]

theorem noDigit_fraction {fraction : List Char} (h : FractionPart fraction)
    (hrest : NoDigit rest) : NoDigit (fraction ++ rest) := by
  cases h with
  | none => exact hrest
  | some _ _ =>
    intro c cs he
    cases he
    decide

theorem readFraction?_append {fraction : List Char} (h : FractionPart fraction)
    (hrest : NoDigit rest) (hpoint : ∀ cs, rest ≠ '.' :: cs) :
    readFraction? (fraction ++ rest) = some (fraction.tail, rest) := by
  cases h with
  | none =>
    rw [List.nil_append, readFraction?.eq_def]
    split
    · exact absurd rfl (hpoint _)
    · rfl
  | some hne hds =>
    rw [List.cons_append, readFraction?, spanDigits_append hds hrest]
    obtain ⟨d, ds, rfl⟩ := List.exists_cons_of_ne_nil hne
    rfl

theorem exponent_head {exponent : List Char} (h : ExponentPart exponent) (hrest : Boundary rest) :
    NoDigit (exponent ++ rest) ∧ ∀ cs, exponent ++ rest ≠ '.' :: cs := by
  cases h with
  | none => exact ⟨hrest.noDigit, fun cs he => (hrest '.' cs he).2.1 rfl⟩
  | some he _ _ _ =>
    simp only [List.mem_cons, List.not_mem_nil, or_false] at he
    constructor
    · intro c cs hc
      cases hc
      rcases he with rfl | rfl <;> rfl
    · intro cs hc
      cases hc
      simp at he

theorem readExponentDigits?_append (negative : Bool) (hne : ds ≠ []) (hds : Digits ds)
    (hrest : NoDigit rest) : readExponentDigits? negative (ds ++ rest) =
      some (some (if negative then -(ofDigits ds : Int) else ofDigits ds), rest) := by
  rw [readExponentDigits?, spanDigits_append hds hrest]
  obtain ⟨d, ds, rfl⟩ := List.exists_cons_of_ne_nil hne
  rfl

theorem readExponent?_unsigned (hne : ds ≠ []) (hds : Digits ds) (rest : List Char) :
    readExponent? ('e' :: (ds ++ rest)) = readExponentDigits? false (ds ++ rest) := by
  obtain ⟨d, ds, rfl⟩ := List.exists_cons_of_ne_nil hne
  have hd : d.isDigit := hds d (List.mem_cons_self ..)
  have hplus : d ≠ '+' := by
    rintro rfl
    exact absurd hd (by decide)
  have hminus : d ≠ '-' := by
    rintro rfl
    exact absurd hd (by decide)
  simp [readExponent?, hplus, hminus]

theorem exists_readExponent? {exponent : List Char} (h : ExponentPart exponent) :
    ∃ e, ∀ rest, Boundary rest → readExponent? (exponent ++ rest) = some (e, rest) := by
  cases h with
  | none =>
    refine ⟨none, fun rest hrest => ?_⟩
    rw [List.nil_append, readExponent?.eq_def]
    split
    · exact absurd rfl (hrest _ _ rfl).2.2.1
    · exact absurd rfl (hrest _ _ rfl).2.2.2
    · rfl
  | @some e sign ds he hsign hne hds =>
    have hletter : ∀ cs, readExponent? (e :: cs) = readExponent? ('e' :: cs) := by
      intro cs
      simp only [List.mem_cons, List.not_mem_nil, or_false] at he
      rcases he with rfl | rfl <;> rfl
    simp only [List.mem_cons, List.not_mem_nil, or_false] at hsign
    rcases hsign with rfl | rfl | rfl
    · refine ⟨some (ofDigits ds), fun rest hrest => ?_⟩
      rw [List.cons_append, hletter, List.nil_append, readExponent?_unsigned hne hds]
      exact readExponentDigits?_append false hne hds hrest.noDigit
    · refine ⟨some (ofDigits ds), fun rest hrest => ?_⟩
      rw [List.cons_append, hletter, List.append_assoc]
      exact readExponentDigits?_append false hne hds hrest.noDigit
    · refine ⟨some (-ofDigits ds), fun rest hrest => ?_⟩
      rw [List.cons_append, hletter, List.append_assoc]
      exact readExponentDigits?_append true hne hds hrest.noDigit

theorem exists_readUnsigned? {whole fraction exponent : List Char} (hwhole : WholePart whole)
    (hfraction : FractionPart fraction) (hexponent : ExponentPart exponent) (negative : Bool) :
    ∃ n, ∀ rest, Boundary rest →
      readUnsigned? negative (whole ++ (fraction ++ exponent) ++ rest) = some (n, rest) := by
  obtain ⟨e, hread⟩ := exists_readExponent? hexponent
  refine ⟨⟨negative, whole, fraction.tail, e⟩, fun rest hrest => ?_⟩
  obtain ⟨hdigit, hpoint⟩ := exponent_head hexponent hrest
  rw [readUnsigned?, List.append_assoc, List.append_assoc,
    readWhole?_append hwhole (noDigit_fraction hfraction hdigit)]
  simp only [readFraction?_append hfraction hdigit hpoint, hread rest hrest]

/-- A number is read whole in front of whatever is no part of it. -/
theorem exists_read? {cs : List Char} (h : IsNumber cs) :
    ∃ n, ∀ rest, Boundary rest → read? (cs ++ rest) = some (n, rest) := by
  cases h with
  | @signed sign whole fraction exponent hsign hwhole hfraction hexponent =>
    simp only [List.mem_cons, List.not_mem_nil, or_false] at hsign
    rcases hsign with rfl | rfl
    · obtain ⟨n, hread⟩ := exists_readUnsigned? hwhole hfraction hexponent false
      refine ⟨n, fun rest hrest => ?_⟩
      have hminus : ∀ cs, whole ++ (fraction ++ exponent) ++ rest ≠ '-' :: cs := by
        obtain ⟨d, ds, rfl, hd⟩ := hwhole.exists_cons
        intro cs he
        cases he
        exact absurd hd (by decide)
      rw [List.nil_append, ← hread rest hrest, read?.eq_def]
      split
      · exact absurd ‹_› (hminus _)
      · rfl
    · exact exists_readUnsigned? hwhole hfraction hexponent true

end Numeral

end Json
end Inference
