import Inference.Proofs.Conjunction.Refusal

/-!
# Inference.Proofs.Conjunction.Regrouping

Conjoining judgments group by group. When the judgments speak of one context, the conjunction of the
conjunctions of consecutive groups has the form of the conjunction of all of them. The inner
renaming keeps the context and the category of every other variable, and nothing else decides the
names that the outer renaming gives; no variable over another category can be taken for the context.

* `alike_numbered`: renaming keeps what the names of a further renaming depend on.
* `conjoinedSymbols_regroup`: the symbols of a conjunction of conjunctions.
* `synthesizeEach`, `synthesize_regroup`: the same for requests.
-/

namespace Inference

namespace Registry

open RenamingState

variable {r : Registry} {context own : Option Variable} {es es' : List Element}

theorem alike_of_replaces {span : Span} {e e' : Element} (h : Replaces own span e e')
    (hcontext : ∀ v, context = some v → r.isContext v.category)
    (hoccurs : ∀ v, e.val = .nonterminal v → r.isContext v.category → own = some v)
    (hd : ∀ v, e.val = .nonterminal v → (r.category? v.category).isSome) :
    Alike r r context e.val e'.val := by
  cases h with
  | keep hk => exact .of_eq rfl
  | @fresh v s name hv =>
    have hother : ¬ r.isContext v.category := fun hc => hv (hoccurs v rfl hc)
    have hname : context ≠ some ⟨name, v.category⟩ :=
      fun hc => hother (hcontext ⟨name, v.category⟩ hc)
    refine .renamed (fun hc => hother (hcontext v hc)) hname rfl ?_
    obtain ⟨c, hc⟩ := Option.isSome_iff_exists.mp (hd v rfl)
    simp only [freshBase, hc]

theorem mem_contextVariables {v : Variable} :
    v ∈ r.contextVariables es ↔ v ∈ variablesOf es ∧ r.isContext v.category := by
  rw [contextVariables, List.mem_filter]

theorem contextVariables_subset (h : es ⊆ es') :
    r.contextVariables es ⊆ r.contextVariables es' := by
  intro v hv
  obtain ⟨hv, hc⟩ := mem_contextVariables.mp hv
  obtain ⟨e, he, hs⟩ := mem_variablesOf.mp hv
  exact mem_contextVariables.mpr ⟨mem_variablesOf.mpr ⟨e, h he, hs⟩, hc⟩

theorem head?_eq_of_agree {vs : List Variable} (hagree : ∀ u ∈ vs, ∀ v ∈ vs, u = v) :
    ∀ v ∈ vs, vs.head? = some v := by
  intro v hv
  obtain ⟨u, hu⟩ := Option.isSome_iff_exists.mp (List.isSome_head?.mpr (List.ne_nil_of_mem hv))
  rw [hu, hagree u (List.mem_of_mem_head? hu) v hv]

/-- Elements and what they are renamed to in a conjunction of their own, when all contexts among
them are the one that is kept outside. -/
theorem alike_numbered (hd : ∀ v ∈ variablesOf es, (r.category? v.category).isSome)
    (hcontext : ∀ v, context = some v → r.isContext v.category)
    (hagree : ∀ v ∈ r.contextVariables es, context = some v) :
    List.Forall₂ (fun e s => Alike r r context e.val s) es
      (r.numbered (r.contextVariables es).head? es) := by
  let own := (r.contextVariables es).head?
  have hoccurs : ∀ v ∈ r.contextVariables es, own = some v :=
    head?_eq_of_agree fun u hu v hv => Option.some.inj ((hagree u hu).symm.trans (hagree v hv))
  have hreplaces : List.Forall₂ (Replaces own {}) es
      (renameElements r own {} { supply := supplyWith own } es).2 :=
    (renames_renameElements _ es).replaces
  rw [numbered, List.forall₂_map_right_iff]
  refine ((List.forall₂_and_left _ _).mpr ⟨fun e he => he, hreplaces⟩).imp fun e e' h => ?_
  refine alike_of_replaces h.2 hcontext (fun v hv hc => hoccurs v ?_) fun v hv => hd v ?_
  · exact mem_contextVariables.mpr ⟨mem_variablesOf.mpr ⟨e, h.1, hv⟩, hc⟩
  · exact mem_variablesOf.mpr ⟨e, h.1, hv⟩

theorem contextVariables_cons (r : Registry) (v : Variable) (s : Span) (es : List Element) :
    r.contextVariables (⟨.nonterminal v, s⟩ :: es) =
      if r.isContext v.category then v :: r.contextVariables es else r.contextVariables es :=
  List.filter_cons

theorem contextVariables_alike
    (h : List.Forall₂ (fun e e' => Alike r r context e.val e'.val) es es')
    (hagree : ∀ v ∈ r.contextVariables es, context = some v) :
    r.contextVariables es' = r.contextVariables es := by
  induction h with
  | nil => rfl
  | @cons e e' es es' he _ ih =>
    obtain ⟨s, place⟩ := e
    obtain ⟨s', place'⟩ := e'
    cases he with
    | terminal token => exact ih hagree
    | @context v hc =>
      rw [contextVariables_cons] at hagree
      rw [contextVariables_cons, contextVariables_cons, ih fun u hu => hagree u ?_]
      split
      · exact List.mem_cons_of_mem _ hu
      · exact hu
    | @renamed u v hu hv hcategory _ =>
      have hother : ¬ r.isContext u.category := by
        intro hc
        rw [contextVariables_cons, if_pos hc] at hagree
        exact hu (hagree u (List.mem_cons_self ..))
      rw [contextVariables_cons, if_neg hother] at hagree
      rw [contextVariables_cons, contextVariables_cons, if_neg hother,
        if_neg (hcategory ▸ hother), ih hagree]

theorem alike_conjoined {separator : String} {group : List Form} {f : Form}
    (hsymbols : f.symbols = r.conjoinedSymbols separator group)
    (hd : ∀ g ∈ group, r.Declares g) (hcontext : ∀ v, context = some v → r.isContext v.category)
    (hagree : ∀ v ∈ r.contextVariables (group.flatMap (·.elements)), context = some v) :
    List.Forall₂ (fun e e' => Alike r r context e.val e'.val)
      (Form.joinWith (.terminal separator {}) (group.map (·.elements))) f.elements := by
  rw [← List.forall₂_map_right_iff (f := Located.val)]
  change List.Forall₂ _ _ f.symbols
  rw [hsymbols]
  refine alike_numbered (fun v hv => isSome_category?_of_joined hd hv) hcontext fun v hv => ?_
  rw [contextVariables_joinWith, flatten_map_elements] at hv
  exact hagree v hv

/-- Conjoining the conjunctions of groups gives the symbols that conjoining all judgments at once
gives, when the judgments speak of one context. -/
theorem conjoinedSymbols_regroup {separator : String} {groups : List (List Form)}
    {forms : List Form} (hne : ∀ group ∈ groups, group ≠ [])
    (hd : ∀ group ∈ groups, ∀ f ∈ group, r.Declares f)
    (hagree : ∀ u ∈ r.contextVariables (groups.flatten.flatMap (·.elements)),
      ∀ v ∈ r.contextVariables (groups.flatten.flatMap (·.elements)), u = v)
    (h : List.Forall₂ (fun group f => f.symbols = r.conjoinedSymbols separator group)
      groups forms) :
    r.conjoinedSymbols separator forms = r.conjoinedSymbols separator groups.flatten := by
  let joined (fs : List Form) : List Element :=
    Form.joinWith (.terminal separator {}) (fs.map (·.elements))
  let context := (r.contextVariables (joined groups.flatten)).head?
  have hjoined : joined groups.flatten =
      Form.joinWith (.terminal separator {}) (groups.map joined) := by
    simp only [joined, List.map_flatten]
    rw [Form.joinWith_flatten _ (by simpa using hne), List.map_map]
    rfl
  have hcontexts : r.contextVariables (joined groups.flatten) =
      r.contextVariables (groups.flatten.flatMap (·.elements)) := by
    rw [contextVariables_joinWith, flatten_map_elements]
  have hshared : ∀ v ∈ r.contextVariables (joined groups.flatten), context = some v :=
    head?_eq_of_agree (hcontexts ▸ hagree)
  have hgroups : List.Forall₂ (List.Forall₂ fun e e' => Alike r r context e.val e'.val)
      (groups.map joined) (forms.map (·.elements)) := by
    rw [List.forall₂_map_left_iff, List.forall₂_map_right_iff]
    refine ((List.forall₂_and_left _ _).mpr ⟨fun _ hg => hg, h⟩).imp fun group f hf => ?_
    refine alike_conjoined hf.2 (hd group hf.1) (fun v hv => ?_) fun v hv => hshared v ?_
    · exact (mem_contextVariables.mp (List.mem_of_mem_head? hv)).2
    · rw [hcontexts]
      refine contextVariables_subset (fun e he => ?_) hv
      obtain ⟨f, hf', he⟩ := List.mem_flatMap.mp he
      exact List.mem_flatMap.mpr ⟨f, List.mem_flatten.mpr ⟨group, hf.1, hf'⟩, he⟩
  have halike : List.Forall₂ (fun e e' => Alike r r context e.val e'.val)
      (joined groups.flatten) (joined forms) := by
    rw [hjoined]
    exact Form.forall₂_joinWith (.terminal _) hgroups
  show r.numbered (r.contextVariables (joined forms)).head? (joined forms) =
    r.numbered context (joined groups.flatten)
  rw [contextVariables_alike halike hshared, numbered_alike halike]

theorem forms_unique {parts : List JudgmentId} {forms forms' : List Form}
    (h : List.Forall₂ (fun part f => r.formOf? part = some f) parts forms)
    (h' : List.Forall₂ (fun part f => r.formOf? part = some f) parts forms') : forms = forms' :=
  List.right_unique_forall₂' (fun _ _ _ hf hf' => Option.some.inj (hf.symm.trans hf')) h h'

end Registry

namespace Workspace

/-! ## Requests one after the other -/

variable {w : Workspace}

/-- Asks for the conjunctions of the lists in turn. -/
def synthesizeEach (w : Workspace) :
    List (Span × List JudgmentId) → Workspace × List (Except SynthesisError Synthesis)
  | [] => (w, [])
  | (span, parts) :: requests =>
    let (w', answer) := w.synthesize span parts
    let (w'', answers) := w'.synthesizeEach requests
    (w'', answer :: answers)

theorem Faithful.exists_synthesis (h : w.Faithful) {parts : List JudgmentId}
    (hforms : ∀ part ∈ parts, (w.registry.formOf? part).isSome) (hnodup : parts.Nodup)
    (span : Span) : ∃ made, (w.synthesize span parts).2 = .ok made := by
  cases hs : (w.synthesize span parts).2 with
  | ok made => exact ⟨made, rfl⟩
  | error e =>
    have hrefused := Registry.exists_componentForms_eq_error_iff.mp
      ⟨e, (h.synthesize_eq_error_iff span parts e).mp hs⟩
    rcases hrefused with ⟨part, hpart, hnone⟩ | hrepeated
    · have hform := hforms part hpart
      rw [hnone] at hform
      cases hform
    · exact absurd hnodup hrepeated

theorem Faithful.exists_syntheses (h : w.Faithful) {requests : List (Span × List JudgmentId)}
    (hforms : ∀ request ∈ requests, ∀ part ∈ request.2, (w.registry.formOf? part).isSome)
    (hnodup : ∀ request ∈ requests, request.2.Nodup) :
    ∃ made : List Synthesis,
      w.synthesizeEach requests = (w.run (requests.map requestEvent), made.map .ok) ∧
      List.Forall₂
        (fun parts id => (w.run (requests.map requestEvent)).cache.get? parts = some id)
        (requests.map (·.2)) (made.map (·.judgment)) := by
  induction requests generalizing w with
  | nil => exact ⟨[], rfl, .nil⟩
  | cons request requests ih =>
    obtain ⟨span, parts⟩ := request
    obtain ⟨hparts, hrest⟩ := List.forall_mem_cons.mp hforms
    obtain ⟨hdistinct, hrest'⟩ := List.forall_mem_cons.mp hnodup
    obtain ⟨first, hfirst⟩ := h.exists_synthesis hparts hdistinct span
    have he := Registry.extends_synthesize w span parts
    obtain ⟨made, hmade, hrecord⟩ := ih (h.synthesize span parts)
      (fun request hrequest part hpart => he.isSome_formOf? (hrest request hrequest part hpart))
      hrest'
    refine ⟨first :: made, ?_, .cons ?_ hrecord⟩
    · simp only [synthesizeEach, hfirst, hmade, List.map_cons]
      rfl
    · exact get?_run (get?_of_synthesize hfirst).1 (clear_not_mem_requests requests)

theorem Tracked.nodup_judgments (h : w.Tracked) {lists : List (List JudgmentId)}
    {judgments : List JudgmentId}
    (hrecord : List.Forall₂ (fun parts id => w.cache.get? parts = some id) lists judgments)
    (hnodup : lists.Nodup) : judgments.Nodup := by
  have hunique : Relator.BiUnique fun parts id => w.cache.get? parts = some id :=
    ⟨fun _ _ _ hget hget' => h.distinct _ _ _ hget hget',
      fun _ _ _ hget hget' => Option.some.inj (hget.symm.trans hget')⟩
  exact (List.rel_nodup hunique hrecord).mp hnodup

theorem nodup_of_nodup_flatten {lists : List (List JudgmentId)} (h : lists.flatten.Nodup)
    (hne : ∀ l ∈ lists, l ≠ []) : lists.Nodup := by
  refine (List.nodup_flatten.mp h).2.imp_of_mem ?_
  rintro l l' hl - hdisjoint rfl
  obtain ⟨part, hpart⟩ := List.exists_mem_of_ne_nil l (hne l hl)
  exact hdisjoint hpart hpart

theorem Faithful.exists_forms (h : w.Faithful) {lists : List (List JudgmentId)}
    {judgments : List JudgmentId}
    (hrecord : List.Forall₂ (fun parts id => w.cache.get? parts = some id) lists judgments) :
    ∃ groups forms,
      List.Forall₂ (List.Forall₂ fun part f => w.registry.formOf? part = some f) lists groups ∧
      List.Forall₂ (fun id f => w.registry.formOf? id = some f) judgments forms ∧
      List.Forall₂ (fun group f => f.symbols =
        w.registry.conjoinedSymbols w.config.separator group) groups forms := by
  induction hrecord with
  | nil => exact ⟨[], [], .nil, .nil, .nil⟩
  | cons hget _ ih =>
    obtain ⟨group, form, hconjoins⟩ := h.conjoined _ _ hget
    obtain ⟨groups, forms, hgroups, hforms, hsymbols⟩ := ih
    exact ⟨group :: groups, form :: forms, .cons hconjoins.components hgroups,
      .cons hconjoins.formOf? hforms, .cons hconjoins.symbols hsymbols⟩

theorem Faithful.exists_conjunction (h : w.Faithful) {parts : List JudgmentId} {forms : List Form}
    (hforms : List.Forall₂ (fun part f => w.registry.formOf? part = some f) parts forms)
    (hnodup : parts.Nodup) (events : List WorkspaceEvent) (span : Span) :
    ∃ w' made form, (w.run events).synthesize span parts = (w', .ok made) ∧
      w'.registry.formOf? made.judgment = some form ∧
      form.symbols = w.registry.conjoinedSymbols w.config.separator forms := by
  have hrun := faithful_run h events
  have hlater := (extends_run w events).forms hforms
  obtain ⟨made, hmade⟩ :=
    hrun.exists_synthesis (Registry.exists_forms_iff.mp ⟨forms, hlater⟩) hnodup span
  have he := (extends_run w events).trans (Registry.extends_synthesize (w.run events) span parts)
  obtain ⟨forms', form, hconjoins⟩ := hrun.conjoins_of_synthesize hmade
  obtain rfl : forms' = forms := Registry.forms_unique hconjoins.components (he.forms hforms)
  refine ⟨_, made, form, Prod.ext rfl hmade, hconjoins.formOf?, ?_⟩
  rw [hconjoins.symbols, he.conjoinedSymbols (h.consistent.declares_forms hforms),
    config_synthesize, config_run]

theorem ne_nil_of_forall₂ {α β : Type} {R : α → β → Prop} {ls : List (List α)}
    {ms : List (List β)} (h : List.Forall₂ (List.Forall₂ R) ls ms) (hne : ∀ l ∈ ls, l ≠ []) :
    ∀ m ∈ ms, m ≠ [] := by
  induction h with
  | nil => simp
  | cons hl _ ih =>
    rw [List.forall_mem_cons] at hne ⊢
    refine ⟨?_, ih hne.2⟩
    rintro rfl
    cases hl
    exact hne.1 rfl

/-- The conjunction of conjunctions that are on record for consecutive groups. -/
theorem Faithful.exists_conjunction_of_groups (h : w.Faithful) {lists : List (List JudgmentId)}
    {judgments : List JudgmentId} {forms : List Form}
    (hrecord : List.Forall₂ (fun parts id => w.cache.get? parts = some id) lists judgments)
    (hne : ∀ parts ∈ lists, parts ≠ []) (hnodup : lists.flatten.Nodup)
    (hforms : List.Forall₂ (fun part f => w.registry.formOf? part = some f) lists.flatten forms)
    (hagree : ∀ u ∈ w.registry.contextVariables (forms.flatMap (·.elements)),
      ∀ v ∈ w.registry.contextVariables (forms.flatMap (·.elements)), u = v) (span : Span) :
    ∃ w' made form, w.synthesize span judgments = (w', .ok made) ∧
      w'.registry.formOf? made.judgment = some form ∧
      form.symbols = w.registry.conjoinedSymbols w.config.separator forms := by
  obtain ⟨groups, conjunctions, hgroups, hconjunctions, hsymbols⟩ := h.exists_forms hrecord
  obtain rfl : forms = groups.flatten := Registry.forms_unique hforms (List.rel_flatten hgroups)
  have hdistinct : judgments.Nodup :=
    h.tracked.nodup_judgments hrecord (nodup_of_nodup_flatten hnodup hne)
  have hd : ∀ group ∈ groups, ∀ f ∈ group, w.registry.Declares f := fun group hg f hf =>
    h.consistent.declares_forms hforms f (List.mem_flatten.mpr ⟨group, hg, hf⟩)
  rw [← Registry.conjoinedSymbols_regroup (ne_nil_of_forall₂ hgroups hne) hd hagree hsymbols]
  exact h.exists_conjunction hconjunctions hdistinct [] span

/-- Judgments that have forms and speak of one context are conjoined group by group, and the
conjunctions of the groups are conjoined. The form has the same symbols as that of the conjunction
of all judgments at once, which may be asked for at any time before or after. -/
theorem synthesize_regroup (h : w.Arises) {requests : List (Span × List JudgmentId)}
    (hne : ∀ request ∈ requests, request.2 ≠ []) {parts : List JudgmentId}
    (hcut : (requests.map (·.2)).flatten = parts)
    (hforms : ∀ part ∈ parts, (w.registry.formOf? part).isSome) (hnodup : parts.Nodup)
    (hagree : ∀ c ∈ parts.flatMap w.registry.contextsOf,
      ∀ d ∈ parts.flatMap w.registry.contextsOf, c.val = d.val) (span : Span) :
    ∃ w₁ w₂ made form, ∃ groups : List Synthesis,
      w.synthesizeEach requests = (w₁, groups.map .ok) ∧
      w₁.synthesize span (groups.map (·.judgment)) = (w₂, .ok made) ∧
      w₂.registry.formOf? made.judgment = some form ∧
      ∀ events span', ∃ w₃ made' form', (w.run events).synthesize span' parts = (w₃, .ok made') ∧
        w₃.registry.formOf? made'.judgment = some form' ∧ form'.symbols = form.symbols := by
  subst hcut
  have hf := h.faithful
  obtain ⟨forms, hparts⟩ := Registry.exists_forms_iff.mpr hforms
  have hmem : ∀ request ∈ requests, ∀ part ∈ request.2, part ∈ (requests.map (·.2)).flatten :=
    fun request hr part hp => List.mem_flatten.mpr ⟨request.2, List.mem_map_of_mem hr, hp⟩
  obtain ⟨groups, hgroups, hrecord⟩ := hf.exists_syntheses
    (fun request hr part hp => hforms part (hmem request hr part hp))
    (fun request hr => (List.nodup_flatten.mp hnodup).1 _ (List.mem_map_of_mem hr))
  have hd := hf.consistent.declares_forms hparts
  have he := extends_run w (requests.map requestEvent)
  have hcontexts : (w.run (requests.map requestEvent)).registry.contextVariables
      (forms.flatMap (·.elements)) =
        ((requests.map (·.2)).flatten.flatMap w.registry.contextsOf).map (·.val) := by
    rw [he.contextVariables fun v hv => Registry.isSome_category?_of_forms hd hv,
      Registry.map_val_contextsOf hparts]
  obtain ⟨w₂, made, form, hmade, hform, hsymbols⟩ :=
    (faithful_run hf _).exists_conjunction_of_groups hrecord (List.forall_mem_map.mpr hne) hnodup
      (he.forms hparts) (by simpa only [hcontexts, List.forall_mem_map] using hagree) span
  refine ⟨_, w₂, made, form, groups, hgroups, hmade, hform, fun events span' => ?_⟩
  obtain ⟨w₃, made', form', hmade', hform', hsymbols'⟩ :=
    hf.exists_conjunction hparts hnodup events span'
  refine ⟨w₃, made', form', hmade', hform', ?_⟩
  rw [hsymbols', hsymbols, he.conjoinedSymbols hd, config_run]

/-- Three judgments over one context, the last of which is the conjunction of the first two. -/
theorem synthesize_regroup_sample : ∃ w : Workspace, w.Arises ∧
    ∃ w₁ w₂ made form, ∃ groups : List Synthesis,
      w.synthesizeEach [({}, [⟨0⟩]), (.point 7 1, [⟨1⟩, ⟨2⟩])] = (w₁, groups.map .ok) ∧
      w₁.synthesize {} (groups.map (·.judgment)) = (w₂, .ok made) ∧
      w₂.registry.formOf? made.judgment = some form ∧
      ∃ w₃ made' form', w.synthesize {} [⟨0⟩, ⟨1⟩, ⟨2⟩] = (w₃, .ok made') ∧
        w₃.registry.formOf? made'.judgment = some form' ∧ form'.symbols = form.symbols := by
  let requests : List (Span × List JudgmentId) := [({}, [⟨0⟩]), (.point 7 1, [⟨1⟩, ⟨2⟩])]
  have harises : (run { registry := .sample } [.synthesize {} [⟨0⟩, ⟨1⟩]]).Arises :=
    ⟨.sample, {}, _, Registry.sample_reachable, rfl⟩
  have hcut : (requests.map (·.2)).flatten = [⟨0⟩, ⟨1⟩, ⟨2⟩] := rfl
  obtain ⟨w₁, w₂, made, form, groups, hgroups, hmade, hform, hflat⟩ :=
    synthesize_regroup harises (by decide) hcut (by decide +kernel) (by decide)
      (by decide +kernel) {}
  exact ⟨_, harises, w₁, w₂, made, form, groups, hgroups, hmade, hform, hflat [] {}⟩

end Workspace

end Inference
