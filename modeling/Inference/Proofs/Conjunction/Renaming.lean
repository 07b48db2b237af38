import Inference.Conjunction.Renaming
import Inference.Proofs.Conjunction.NameSupply
import Inference.Proofs.Form

/-!
# Inference.Proofs.Conjunction.Renaming

What renaming forms apart does to their elements. `Renames` follows the renamer from element to
element; everything below is by induction on it.

* `Replaces`: how an element relates to the one that takes its place.
* `rename_replaces`: renaming keeps the number of forms and replaces their elements one by one.
* `rename_namedApart`: afterwards a name occurs twice only when it is that of the shared context.
* `rename_renamings`: the table of renamings lists the replaced occurrences from left to right.
-/

namespace Inference

/-- Only the shared context occurs under one name at two places. -/
def NamedApart (context : Option Variable) (es : List Element) : Prop :=
  (variablesOf es).Pairwise fun u v => u.name = v.name → context = some u ∧ context = some v

theorem NamedApart.eq_of_name {context : Option Variable} {es : List Element}
    (h : NamedApart context es) {u v : Variable} (hu : u ∈ variablesOf es) (hv : v ∈ variablesOf es)
    (hn : u.name = v.name) : u = v := by
  let same : Variable → Variable → Prop := fun u v => u.name = v.name → u = v
  have hsame : (variablesOf es).Pairwise same := by
    refine h.imp fun {u v} huv hn => ?_
    obtain ⟨h1, h2⟩ := huv hn
    exact Option.some.inj (h1.symm.trans h2)
  have hflip : (variablesOf es).Pairwise (flip same) :=
    hsame.imp fun huv hn => (huv hn.symm).symm
  exact hsame.forall_of_forall_of_flip (fun _ _ _ => rfl) hflip hu hv hn

theorem NamedApart.getElem? {context : Option Variable} {es : List Element}
    (h : NamedApart context es) {i j : Nat} (hij : i ≠ j) {e f : Element} {u v : Variable}
    (hi : es[i]? = some e) (hj : es[j]? = some f) (hu : e.val = .nonterminal u)
    (hv : f.val = .nonterminal v) (hn : u.name = v.name) :
    context = some u ∧ context = some v := by
  have hp := List.pairwise_iff_getElem.mp (List.pairwise_filterMap.mp h)
  obtain ⟨hi', hi⟩ := List.getElem?_eq_some_iff.mp hi
  obtain ⟨hj', hj⟩ := List.getElem?_eq_some_iff.mp hj
  have hu' : es[i].val.nonterminal? = some u := by rw [hi, hu]; rfl
  have hv' : es[j].val.nonterminal? = some v := by rw [hj, hv]; rfl
  rcases Nat.lt_or_gt_of_ne hij with hlt | hgt
  · exact hp i j hi' hj' hlt u hu' v hv' hn
  · exact (hp j i hj' hi' hgt v hv' u hu' hn.symm).symm

theorem NamedApart.eq_context {context : Option Variable} {ess : List (List Element)}
    (h : NamedApart context ess.flatten) {i j : Nat} (hij : i < j) {es es' : List Element}
    (hi : ess[i]? = some es) (hj : ess[j]? = some es') {v : Variable} (hv : v ∈ variablesOf es)
    (hv' : v ∈ variablesOf es') : context = some v := by
  rw [NamedApart, variablesOf_flatten, List.pairwise_flatten] at h
  have hp := List.pairwise_iff_getElem.mp (List.pairwise_map.mp h.2)
  obtain ⟨hi', rfl⟩ := List.getElem?_eq_some_iff.mp hi
  obtain ⟨hj', rfl⟩ := List.getElem?_eq_some_iff.mp hj
  exact (hp i j hi' hj' hij v hv v hv' rfl).1

/-- How the renamer replaces an element: terminals and the shared context stay, and any other
variable becomes one over the same category. -/
inductive Replaces (context : Option Variable) (span : Span) : Element → Element → Prop where
  | keep {e : Element} : (∀ v, e.val = .nonterminal v → context = some v) →
      Replaces context span e e
  | fresh {v : Variable} {s : Span} (name : String) : context ≠ some v →
      Replaces context span ⟨.nonterminal v, s⟩ (.ofNonterminal ⟨⟨name, v.category⟩, span⟩)

theorem Replaces.fits {context : Option Variable} {span : Span} {e e' : Element}
    (h : Replaces context span e e') : e.val.fits e'.val = true := by
  cases h with
  | keep _ => exact Symbol.fits_self _
  | fresh name _ => simp [Symbol.fits, Element.ofNonterminal]

theorem exists_category_of_replaces {context : Option Variable} {span : Span}
    {es es' : List Element} (h : List.Forall₂ (Replaces context span) es es') {v : Variable}
    (hv : v ∈ variablesOf es') : ∃ u ∈ variablesOf es, u.category = v.category := by
  obtain ⟨e', he', hs'⟩ := mem_variablesOf.mp hv
  obtain ⟨i, hi', rfl⟩ := List.mem_iff_getElem.mp he'
  have hi := h.length_eq ▸ hi'
  have hfits := (h.get hi hi').fits
  simp only [List.get_eq_getElem, hs'] at hfits
  cases hs : es[i].val with
  | terminal t => rw [hs] at hfits; cases hfits
  | nonterminal u =>
    rw [hs] at hfits
    exact ⟨u, mem_variablesOf.mpr ⟨_, List.getElem_mem hi, hs⟩, beq_iff_eq.mp hfits⟩

theorem context_mem_of_replaces {context : Option Variable} {span : Span} {es es' : List Element}
    (h : List.Forall₂ (Replaces context span) es es') {v : Variable} (hc : context = some v)
    (hv : v ∈ variablesOf es) : v ∈ variablesOf es' := by
  induction h with
  | nil => exact hv
  | @cons e e' es es' he _ ih =>
    obtain ⟨f, hf, hs⟩ := mem_variablesOf.mp hv
    rcases List.mem_cons.mp hf with rfl | hf
    · cases he with
      | keep _ => exact mem_variablesOf.mpr ⟨_, List.mem_cons_self .., hs⟩
      | fresh name hne =>
        cases hs
        exact absurd hc hne
    · obtain ⟨f', hf', hs'⟩ := mem_variablesOf.mp (ih (mem_variablesOf.mpr ⟨f, hf, hs⟩))
      exact mem_variablesOf.mpr ⟨f', List.mem_cons_of_mem _ hf', hs'⟩

/-- The renamed occurrences among elements and their replacements, from left to right: the variable
and what stands for it. -/
def replacements (context : Option Variable) (es es' : List Element) :
    List (Variable × Nonterminal) :=
  (es.zip es').filterMap fun (e, e') =>
    match e.val, e'.nonterminal? with
    | .nonterminal v, some nt => if context = some v then none else some (v, nt)
    | _, _ => none

/-- The renamer at work on a list of elements: from one state, over the elements, to a later state
and the elements in their places. -/
inductive Renames (r : Registry) (context : Option Variable) (span : Span) :
    RenamingState → List Element → RenamingState → List Element → Prop where
  | nil {st : RenamingState} : Renames r context span st [] st []
  | keep {st st' : RenamingState} {e : Element} {es es' : List Element} :
      (∀ v, e.val = .nonterminal v → context = some v) →
      Renames r context span st es st' es' →
      Renames r context span st (e :: es) st' (e :: es')
  | fresh {st st' : RenamingState} {v : Variable} {s : Span} {supply : NameSupply} {name : String}
      {es es' : List Element} :
      context ≠ some v → st.supply.fresh (r.freshBase v) = (supply, name) →
      Renames r context span
        ⟨supply, st.renamings ++ [(v, ⟨⟨name, v.category⟩, span⟩)]⟩ es st' es' →
      Renames r context span st (⟨.nonterminal v, s⟩ :: es) st'
        (.ofNonterminal ⟨⟨name, v.category⟩, span⟩ :: es')

section Renames

variable {r : Registry} {context : Option Variable} {span : Span}

open RenamingState

theorem renames_renameElements (st : RenamingState) (es : List Element) :
    Renames r context span st es (renameElements r context span st es).1
      (renameElements r context span st es).2 := by
  induction es generalizing st with
  | nil => exact .nil
  | cons e es ih =>
    obtain ⟨s, at_⟩ := e
    cases s with
    | terminal t => exact .keep (fun v h => by cases h) (ih st)
    | nonterminal v =>
      by_cases hc : context = some v
      · have he : renameElement r context span st ⟨.nonterminal v, at_⟩ =
            (st, ⟨.nonterminal v, at_⟩) := by simp [renameElement, hc]
        simp only [renameElements, he]
        exact .keep (fun u h => by cases h; exact hc) (ih st)
      · simp only [renameElements, renameElement, if_neg hc]
        exact .fresh hc rfl (ih _)

theorem Renames.append {st st₁ st₂ : RenamingState} {es es' fs fs' : List Element}
    (h₁ : Renames r context span st es st₁ es') (h₂ : Renames r context span st₁ fs st₂ fs') :
    Renames r context span st (es ++ fs) st₂ (es' ++ fs') := by
  induction h₁ with
  | nil => exact h₂
  | keep hk _ ih => exact .keep hk (ih h₂)
  | fresh hc hf _ ih => exact .fresh hc hf (ih h₂)

theorem renames_renameForms (st : RenamingState) (fs : List Form) :
    Renames r context span st (fs.flatMap (·.elements)) (renameForms r context span st fs).1
      (renameForms r context span st fs).2.flatten := by
  induction fs generalizing st with
  | nil => exact .nil
  | cons f fs ih =>
    simp only [List.flatMap_cons, renameForms, List.flatten_cons]
    exact (renames_renameElements st f.elements).append (ih _)

theorem Renames.replaces {st st' : RenamingState} {es es' : List Element}
    (h : Renames r context span st es st' es') : List.Forall₂ (Replaces context span) es es' := by
  induction h with
  | nil => exact .nil
  | keep hk _ ih => exact .cons (.keep hk) ih
  | fresh hc _ _ ih => exact .cons (.fresh _ hc) ih

theorem renameForms_replaces (st : RenamingState) (fs : List Form) :
    List.Forall₂ (fun f es' => List.Forall₂ (Replaces context span) f.elements es') fs
      (renameForms r context span st fs).2 := by
  induction fs generalizing st with
  | nil => exact .nil
  | cons f fs ih => exact .cons (renames_renameElements st f.elements).replaces (ih _)

theorem Renames.forall_mem {P : Symbol → Prop} {st st' : RenamingState} {es es' : List Element}
    (h : Renames r context span st es st' es')
    (hnumbered : ∀ v n, P (.nonterminal v) →
      P (.nonterminal ⟨Text.numbered (r.freshBase v) n, v.category⟩))
    (hes : ∀ e ∈ es, P e.val) : ∀ e ∈ es', P e.val := by
  induction h with
  | nil => exact hes
  | keep _ _ ih =>
    obtain ⟨he, hrest⟩ := List.forall_mem_cons.mp hes
    exact List.forall_mem_cons.mpr ⟨he, ih hrest⟩
  | fresh _ hf _ ih =>
    obtain ⟨hv, hrest⟩ := List.forall_mem_cons.mp hes
    refine List.forall_mem_cons.mpr ⟨?_, ih hrest⟩
    rw [(NameSupply.exists_number_of_fresh hf).2]
    exact hnumbered _ _ hv

/-- What is not the context has a name that was not in use before. -/
theorem Renames.unused {st st' : RenamingState} {es es' : List Element}
    (h : Renames r context span st es st' es') {v : Variable} (hv : v ∈ variablesOf es') :
    context = some v ∨ v.name ∉ st.supply.used := by
  induction h with
  | nil => cases hv
  | keep hk _ ih =>
    obtain ⟨e, he, hs⟩ := mem_variablesOf.mp hv
    rcases List.mem_cons.mp he with rfl | he
    · exact .inl (hk v hs)
    · exact ih (mem_variablesOf.mpr ⟨e, he, hs⟩)
  | fresh _ hf _ ih =>
    rcases List.mem_cons.mp hv with rfl | hv
    · exact .inr (NameSupply.fresh_unused hf)
    · exact (ih hv).imp_right fun hn hmem =>
        hn ((NameSupply.mem_used_fresh hf).mpr (.inr hmem))

theorem Renames.namedApart {st st' : RenamingState} {es es' : List Element}
    (h : Renames r context span st es st' es')
    (hc : ∀ v, context = some v → v.name ∈ st.supply.used) : NamedApart context es' := by
  induction h with
  | nil => exact List.Pairwise.nil
  | @keep st _ e _ es' hk hes ih =>
    have hrest := ih hc
    obtain ⟨s, at_⟩ := e
    cases s with
    | terminal t => exact hrest
    | nonterminal v =>
      have hv : context = some v := hk v rfl
      refine List.pairwise_cons.mpr ⟨fun u hu hn => ⟨hv, ?_⟩, hrest⟩
      rcases hes.unused hu with h | h
      · exact h
      · exact absurd (hn ▸ hc v hv) h
  | @fresh st _ v s _ name _ _ hv hf hes ih =>
    have hrest := ih fun u hu => (NameSupply.mem_used_fresh hf).mpr (.inr (hc u hu))
    refine List.pairwise_cons.mpr ⟨fun u hu hn => ?_, hrest⟩
    have hn : name = u.name := hn
    rcases hes.unused hu with h | h
    · exact absurd (hn ▸ hc u h) (NameSupply.fresh_unused hf)
    · exact absurd ((NameSupply.mem_used_fresh hf).mpr (.inl hn.symm)) h

theorem replacements_cons_keep {e : Element} {es es' : List Element}
    (hk : ∀ v, e.val = .nonterminal v → context = some v) :
    replacements context (e :: es) (e :: es') = replacements context es es' := by
  obtain ⟨s, at_⟩ := e
  cases s with
  | terminal t => rfl
  | nonterminal v => simp [replacements, Element.nonterminal?, Symbol.nonterminal?, hk v rfl]

theorem replacements_cons_fresh {v : Variable} {s : Span} {nt : Nonterminal}
    {es es' : List Element} (hv : context ≠ some v) :
    replacements context (⟨.nonterminal v, s⟩ :: es) (.ofNonterminal nt :: es') =
      (v, nt) :: replacements context es es' := by
  simp [replacements, Element.nonterminal?, Symbol.nonterminal?, Element.ofNonterminal, hv]

theorem Renames.renamings {st st' : RenamingState} {es es' : List Element}
    (h : Renames r context span st es st' es') :
    st'.renamings = st.renamings ++ replacements context es es' := by
  induction h with
  | nil => exact (List.append_nil _).symm
  | keep hk _ ih => rw [ih, replacements_cons_keep hk]
  | fresh hv _ _ ih => rw [ih, replacements_cons_fresh hv, List.append_assoc]; rfl

/-- What stands for a variable is not under a name that was in use before. -/
theorem Renames.replacement_unused {st st' : RenamingState} {es es' : List Element}
    (h : Renames r context span st es st' es') {p : Variable × Nonterminal}
    (hp : p ∈ replacements context es es') : p.2.val.name ∉ st.supply.used := by
  induction h with
  | nil => cases hp
  | keep hk _ ih => exact ih (replacements_cons_keep hk ▸ hp)
  | fresh hv hf _ ih =>
    rw [replacements_cons_fresh hv] at hp
    rcases List.mem_cons.mp hp with rfl | hp
    · exact NameSupply.fresh_unused hf
    · exact fun hmem => ih hp ((NameSupply.mem_used_fresh hf).mpr (.inr hmem))

end Renames

section Replacements

variable {context : Option Variable} {span : Span}

theorem replacements_append {es es' fs fs' : List Element}
    (h : List.Forall₂ (Replaces context span) es es') :
    replacements context (es ++ fs) (es' ++ fs') =
      replacements context es es' ++ replacements context fs fs' := by
  simp only [replacements]
  rw [List.zip_append h.length_eq, List.filterMap_append]

theorem replacements_category {es es' : List Element}
    (h : List.Forall₂ (Replaces context span) es es') {p : Variable × Nonterminal}
    (hp : p ∈ replacements context es es') : p.2.val.category = p.1.category := by
  induction h with
  | nil => cases hp
  | cons he _ ih =>
    cases he with
    | keep hk =>
      rw [replacements_cons_keep hk] at hp
      exact ih hp
    | fresh name hv =>
      rw [replacements_cons_fresh hv] at hp
      rcases List.mem_cons.mp hp with rfl | hp
      · rfl
      · exact ih hp

/-- At some place the first list has the variable and the second the nonterminal. -/
def StandsFor (es es' : List Element) (m : Variable) (nt : Nonterminal) : Prop :=
  ∃ (k : Nat) (s : Span), es[k]? = some ⟨.nonterminal m, s⟩ ∧ es'[k]? = some (.ofNonterminal nt)

theorem StandsFor.mem {es es' : List Element} {m : Variable} {nt : Nonterminal}
    (h : StandsFor es es' m nt) : nt.val ∈ variablesOf es' := by
  obtain ⟨k, s, _, h⟩ := h
  exact mem_variablesOf.mpr ⟨_, List.mem_of_getElem? h, rfl⟩

theorem StandsFor.cons {es es' : List Element} {m : Variable} {nt : Nonterminal}
    (h : StandsFor es es' m nt) (e e' : Element) : StandsFor (e :: es) (e' :: es') m nt := by
  obtain ⟨k, s, h, h'⟩ := h
  exact ⟨k + 1, s, h, h'⟩

/-- A variable other than the context has a first replacement, which stands in its place. -/
theorem find?_replacements {es es' : List Element} {m : Variable}
    (h : List.Forall₂ (Replaces context span) es es') (hc : context ≠ some m)
    (hm : m ∈ variablesOf es) :
    ∃ nt, (replacements context es es').find? (·.1 == m) = some (m, nt) ∧
      StandsFor es es' m nt := by
  induction h with
  | nil => cases hm
  | @cons e e' es es' he _ ih =>
    cases he with
    | keep hk =>
      have hm : m ∈ variablesOf es := by
        obtain ⟨f, hf, hv⟩ := mem_variablesOf.mp hm
        rcases List.mem_cons.mp hf with rfl | hf
        · exact absurd (hk m hv) hc
        · exact mem_variablesOf.mpr ⟨f, hf, hv⟩
      obtain ⟨nt, h1, h2⟩ := ih hm
      exact ⟨nt, by rw [replacements_cons_keep hk, h1], h2.cons _ _⟩
    | @fresh v s name hv =>
      rw [replacements_cons_fresh hv]
      by_cases he : v = m
      · subst he
        exact ⟨_, List.find?_cons_of_pos (beq_self_eq_true v), 0, s, rfl, rfl⟩
      · have hm : m ∈ variablesOf es := (List.mem_cons.mp hm).resolve_left (Ne.symm he)
        obtain ⟨nt, h1, h2⟩ := ih hm
        rw [List.find?_cons_of_neg (by simpa using he)]
        exact ⟨nt, h1, h2.cons _ _⟩

theorem find?_replacements_eq_none {es es' : List Element} {m : Variable}
    (h : List.Forall₂ (Replaces context span) es es') (hm : m ∉ variablesOf es) :
    (replacements context es es').find? (·.1 == m) = none := by
  induction h with
  | nil => rfl
  | @cons e e' es es' he _ ih =>
    have hrest : m ∉ variablesOf es := fun hmem => hm (by
      obtain ⟨f, hf, hv⟩ := mem_variablesOf.mp hmem
      exact mem_variablesOf.mpr ⟨f, List.mem_cons_of_mem _ hf, hv⟩)
    cases he with
    | keep hk => rw [replacements_cons_keep hk, ih hrest]
    | @fresh v s name hv =>
      have he : v ≠ m := fun he => hm (List.mem_cons.mpr (.inl he.symm))
      rw [replacements_cons_fresh hv, List.find?_cons_of_neg (by simpa using he), ih hrest]

theorem find?_replacements_forms {fs : List Form} {ess : List (List Element)} {m : Variable}
    (h : List.Forall₂ (fun f es => List.Forall₂ (Replaces context span) f.elements es) fs ess)
    (hc : context ≠ some m) {i : Nat} {f : Form} {es : List Element} (hf : fs[i]? = some f)
    (hes : ess[i]? = some es) (hm : m ∈ variablesOf f.elements)
    (hfirst : ∀ g ∈ fs.take i, m ∉ variablesOf g.elements) :
    ∃ nt, (replacements context (fs.flatMap (·.elements)) ess.flatten).find? (·.1 == m) =
      some (m, nt) ∧ StandsFor f.elements es m nt := by
  induction h generalizing i with
  | nil => cases hf
  | @cons g gs fs ess hg _ ih =>
    rw [List.flatMap_cons, List.flatten_cons, replacements_append hg, List.find?_append]
    cases i with
    | zero =>
      cases hf
      cases hes
      obtain ⟨nt, h1, h2⟩ := find?_replacements hg hc hm
      exact ⟨nt, by rw [h1]; rfl, h2⟩
    | succ i =>
      rw [List.take_succ_cons] at hfirst
      obtain ⟨nt, h1, h2⟩ := ih hf hes fun g hg => hfirst g (List.mem_cons_of_mem _ hg)
      rw [find?_replacements_eq_none hg (hfirst g (List.mem_cons_self ..))]
      exact ⟨nt, h1, h2⟩

end Replacements

/-! ## The renaming of forms -/

namespace NameSupply

variable (s : NameSupply) (r : Registry) (forms : List Form) (context : Option Nonterminal)
  (span : Span)

def withContext : NameSupply :=
  match context with
  | none => s
  | some nt => s.reserve nt.val.name

theorem renames_rename : ∃ st,
    Renames r (context.map (·.val)) span { supply := s.withContext context }
      (forms.flatMap (·.elements)) st (s.rename r forms context span).components.flatten ∧
    (s.rename r forms context span).renamings = st.renamings :=
  ⟨_, renames_renameForms _ forms, rfl⟩

theorem context_mem_used {v : Variable} (h : context.map (·.val) = some v) :
    v.name ∈ (s.withContext context).used := by
  cases context with
  | none => cases h
  | some nt =>
    cases h
    exact mem_used_reserve.mpr (.inl rfl)

theorem rename_replaces :
    List.Forall₂ (fun f es => List.Forall₂ (Replaces (context.map (·.val)) span) f.elements es)
      forms (s.rename r forms context span).components :=
  renameForms_replaces _ forms

theorem rename_namedApart :
    NamedApart (context.map (·.val)) (s.rename r forms context span).components.flatten := by
  obtain ⟨st, h, _⟩ := s.renames_rename r forms context span
  exact h.namedApart fun v hv => s.context_mem_used context hv

theorem rename_renamings : (s.rename r forms context span).renamings =
    replacements (context.map (·.val)) (forms.flatMap (·.elements))
      (s.rename r forms context span).components.flatten := by
  obtain ⟨st, h, hst⟩ := s.renames_rename r forms context span
  rw [hst, h.renamings]
  rfl

theorem rename_ne_context {v : Variable} {nt : Nonterminal}
    (h : (s.rename r forms context span).renamed? v = some nt) :
    context.map (·.val) ≠ some nt.val := by
  obtain ⟨st, hst, hr⟩ := s.renames_rename r forms context span
  obtain ⟨p, hp, rfl⟩ := Option.map_eq_some_iff.mp h
  have hmem := List.mem_of_find?_eq_some hp
  rw [hr, hst.renamings] at hmem
  exact fun hc => hst.replacement_unused hmem (s.context_mem_used context hc)

theorem renamed?_category {v : Variable} {nt : Nonterminal}
    (h : (s.rename r forms context span).renamed? v = some nt) :
    nt.val.category = v.category := by
  obtain ⟨st, hst, hr⟩ := s.renames_rename r forms context span
  obtain ⟨p, hp, rfl⟩ := Option.map_eq_some_iff.mp h
  have hmem := List.mem_of_find?_eq_some hp
  rw [hr, hst.renamings] at hmem
  rw [replacements_category hst.replaces hmem]
  have hv := List.find?_some hp
  rw [beq_iff_eq.mp hv]

theorem renamed?_rename {m : Variable} (hc : context.map (·.val) ≠ some m) {i : Nat} {f : Form}
    {es : List Element} (hf : forms[i]? = some f)
    (hes : (s.rename r forms context span).components[i]? = some es)
    (hm : m ∈ variablesOf f.elements)
    (hfirst : ∀ g ∈ forms.take i, m ∉ variablesOf g.elements) :
    ∃ nt, (s.rename r forms context span).renamed? m = some nt ∧
      StandsFor f.elements es m nt := by
  obtain ⟨nt, h1, h2⟩ := find?_replacements_forms (s.rename_replaces r forms context span) hc hf
    hes hm hfirst
  exact ⟨nt, by rw [Renamed.renamed?, rename_renamings, h1]; rfl, h2⟩

end NameSupply

end Inference
