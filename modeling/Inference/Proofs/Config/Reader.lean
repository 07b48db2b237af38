import Inference.Config.Reader
import Inference.Proofs.Config.Text
import Inference.Proofs.Json.Lexing
import Mathlib.Data.List.Nodup

/-!
# Inference.Proofs.Config.Reader

The codec that takes texts apart into tokens does what is asked of a codec. The tokens of an object
lead from one state of the reader to the next, member by member, and those of an array from one
value to the next.

* `exists_objectTokens`, `exists_arrayTokens`: the tokens of a text, and what is read from them.
* `isObject_toJson`: what is written.
* `JsonCodec.byTokens_standard`, `JsonCodec.byTokens_fillsFields`: what is asked of a codec.
-/

namespace Inference

open Json Grammar

theorem Padded.exists_tokens {P : List Char → Prop} {cs : List Char} (h : Padded P cs)
    {Q : List Token → Prop} (hP : ∀ cs, P cs → ∃ ts, LexesAs cs ts ∧ Q ts) :
    ∃ ts, LexesAs cs ts ∧ Q ts := by
  cases h with
  | around hws hcs hws' =>
    obtain ⟨ts, hlexes, hts⟩ := hP _ hcs
    exact ⟨ts, hlexes.padded hws hws', hts⟩

theorem exists_stringToken {s : String} {cs : List Char} (h : IsString s cs) :
    ∃ ts, LexesAs cs ts ∧ ∃ pieces, ts = [.text pieces] ∧ decode? pieces = some s := by
  cases h with
  | quoted hspells =>
    obtain ⟨pieces, hread, hdecode⟩ := hspells.exists_pieces
    refine ⟨_, lexesAs_string hread, pieces, rfl, ?_⟩
    rw [decode?, hdecode, Option.map_some, String.ofList_toList]

theorem Listed.ne_nil {P : ConfigEntry → List Char → Prop} {entries : List ConfigEntry}
    {cs : List Char} (h : Listed P entries cs) : entries ≠ [] := by
  cases h <;> exact List.cons_ne_nil _ _

namespace PartialConfig

theorem has_set (p : PartialConfig) (e : ConfigEntry) (f : ConfigField) :
    (p.set e).has f = true ↔ p.has f = true ∨ e.field? = some f := by
  cases e <;> cases f <;> simp [set, has, ConfigEntry.field?]

theorem has_set_eq_false_iff {p : PartialConfig} {e : ConfigEntry} {f : ConfigField} :
    (p.set e).has f = false ↔ p.has f = false ∧ e.field? ≠ some f := by
  rw [← Bool.not_eq_true, has_set, not_or, Bool.not_eq_true]

theorem complete_set (p : PartialConfig) (e : ConfigEntry) :
    (p.set e).complete = e.apply p.complete := by
  cases e <;> rfl

theorem setMembers_eq_ok_iff {p p' : PartialConfig} {members : List ConfigEntry} :
    p.setMembers members = .ok p' ↔
      (∀ f ∈ members.filterMap ConfigEntry.field?, p.has f = false) ∧
      (members.filterMap ConfigEntry.field?).Nodup ∧ p' = members.foldl set p := by
  induction members generalizing p with
  | nil =>
    simp only [setMembers, Except.ok.injEq, List.filterMap_nil, List.not_mem_nil,
      IsEmpty.forall_iff, implies_true, List.nodup_nil, List.foldl_nil, true_and]
    exact eq_comm
  | cons e members ih =>
    simp only [setMembers]
    cases hf : e.field? with
    | none =>
      have hset : ∀ f, (p.set e).has f = p.has f := by
        intro f
        rw [Bool.eq_iff_iff, has_set, hf]
        simp
      simp only [Option.filter_none, List.filterMap_cons_none hf, List.foldl_cons, ih, hset]
    | some f =>
      rw [List.filterMap_cons_some hf, List.nodup_cons, List.forall_mem_cons, List.foldl_cons]
      by_cases hhas : p.has f = true
      · simp [Option.filter, hhas]
      · simp only [Option.filter, hhas, Bool.false_eq_true, if_false, ih, has_set_eq_false_iff, hf]
        constructor
        · rintro ⟨hfree, hnodup, rfl⟩
          exact ⟨⟨trivial, fun g hg => (hfree g hg).1⟩, ⟨fun hg => (hfree f hg).2 rfl, hnodup⟩, rfl⟩
        · rintro ⟨⟨_, hfree⟩, ⟨hnew, hnodup⟩, rfl⟩
          refine ⟨fun g hg => ⟨hfree g hg, ?_⟩, hnodup, rfl⟩
          rintro ⟨⟩
          exact hnew hg

theorem setValues_eq_ok_iff {p p' : PartialConfig} {fields : List ConfigField}
    {values : List ConfigEntry} :
    p.setValues fields values = .ok p' ↔
      values.map ConfigEntry.field? <+: fields.map some ∧ p' = values.foldl set p := by
  induction values generalizing p fields with
  | nil =>
    simp only [setValues, Except.ok.injEq, List.map_nil, List.nil_prefix, List.foldl_nil, true_and]
    exact eq_comm
  | cons e values ih =>
    cases fields with
    | nil => simp [setValues]
    | cons f fields =>
      rw [setValues, List.map_cons, List.map_cons, List.cons_prefix_cons, List.foldl_cons,
        and_assoc, ← ih]
      by_cases hf : e.field? = some f <;> simp [hf]

end PartialConfig

namespace Config

theorem exists_fieldToken {e : ConfigEntry} {f : ConfigField} (hf : e.field? = some f)
    {cs : List Char} (h : e.IsValue cs) :
    ∃ ts, LexesAs cs ts ∧ ∃ t, ts = [t] ∧ ∀ p, readField p f t = .ok (p.set e) := by
  cases e with
  | separator s =>
    cases hf
    obtain ⟨_, hlexes, pieces, rfl, hdecode⟩ := exists_stringToken h
    exact ⟨_, hlexes, _, rfl, fun p => by simp [readField, readText, hdecode]; rfl⟩
  | label s =>
    cases hf
    obtain ⟨_, hlexes, pieces, rfl, hdecode⟩ := exists_stringToken h
    exact ⟨_, hlexes, _, rfl, fun p => by simp [readField, readText, hdecode]; rfl⟩
  | validate b =>
    cases hf
    cases b with
    | true =>
      cases h
      exact ⟨_, lexesAs_token (by decide) fun _ _ => rfl, _, rfl, fun p => rfl⟩
    | false =>
      cases h
      exact ⟨_, lexesAs_token (by decide) fun _ _ => rfl, _, rfl, fun p => rfl⟩
  | unknown key h => cases hf

/-- In an object, the tokens lead from one state to another. -/
def Leads (p : PartialConfig) (state : ObjectState) (ts : List Token) (p' : PartialConfig)
    (state' : ObjectState) : Prop :=
  ∀ us, readObject p state (ts ++ us) = readObject p' state' us

theorem leads_of_skips {p : PartialConfig} {s : Skipping} {ts : List Token}
    (h : Skips s ts .whole) : Leads p (.skipping s) ts p .next := by
  generalize hr : Skipped.whole = r at h
  induction h with
  | none => cases hr
  | last hstep =>
    intro us
    rw [List.singleton_append, readObject, hstep]
  | step hstep _ ih =>
    intro us
    rw [List.cons_append, readObject, hstep]
    exact ih hr us

theorem ofKey?_key (e : ConfigEntry) : ConfigField.ofKey? e.key = e.field? := by
  cases e with
  | unknown key h =>
    simp only [List.mem_cons, List.not_mem_nil, or_false, not_or] at h
    obtain ⟨hseparator, hlabel, hvalidate⟩ := h
    simp [ConfigEntry.key, ConfigEntry.field?, ConfigField.ofKey?, ConfigField.all, ConfigField.key,
      Ne.symm hseparator, Ne.symm hlabel, Ne.symm hvalidate]
  | _ => rfl

theorem exists_unknownTokens {e : ConfigEntry} (hf : e.field? = none) {cs : List Char}
    (h : e.IsValue cs) : ∃ ts, LexesAs cs ts ∧ ∀ p, Leads p (.skipping {}) ts (p.set e) .next := by
  cases e with
  | unknown key hkey =>
    obtain ⟨ts, hlexes, hpass⟩ := Grammar.Written.exists_tokens h
    exact ⟨ts, hlexes, fun p => leads_of_skips (hpass [] .value (by decide))⟩
  | _ => cases hf

/-- A member leads to the comma after it, and sets its field if it has one. -/
theorem exists_memberTokens {e : ConfigEntry} {cs : List Char} (h : IsMember e cs) :
    ∃ ts, LexesAs cs ts ∧ ∀ p, (∀ f, e.field? = some f → p.has f = false) →
      ∀ state ∈ [ObjectState.firstKey, .key], Leads p state ts (p.set e) .next := by
  cases h with
  | pair hkey hvalue =>
    obtain ⟨_, hlexes, pieces, rfl, hdecode⟩ := hkey.exists_tokens fun _ => exists_stringToken
    have hkeys : ∀ p, (∀ f, e.field? = some f → p.has f = false) →
        readKey p pieces = .ok (.colon e.field?) := by
      intro p hfresh
      rw [readKey, hdecode]
      simp only [ofKey?_key]
      cases hf : e.field? with
      | none => rfl
      | some f => simp [hfresh f hf]
    cases hf : e.field? with
    | some f =>
      obtain ⟨_, hlexes', t, rfl, hread⟩ := hvalue.exists_tokens fun _ => exists_fieldToken hf
      refine ⟨_, hlexes.structural .colon hlexes', fun p hfresh state hstate us => ?_⟩
      have hkey := hkeys p (hf ▸ hfresh)
      simp only [List.mem_cons, List.not_mem_nil, or_false] at hstate
      rcases hstate with rfl | rfl
      · simp [readObject, hkey, hf, hread]
      · simp [readObject, hkey, hf, hread]
    | none =>
      obtain ⟨ts, hlexes', hleads⟩ := hvalue.exists_tokens fun _ => exists_unknownTokens hf
      refine ⟨_, hlexes.structural .colon hlexes', fun p hfresh state hstate us => ?_⟩
      have hkey := hkeys p (hf ▸ hfresh)
      simp only [List.mem_cons, List.not_mem_nil, or_false] at hstate
      rcases hstate with rfl | rfl
      · simp [readObject, hkey, hf, hleads p us]
      · simp [readObject, hkey, hf, hleads p us]

theorem exists_membersTokens {entries : List ConfigEntry} {cs : List Char}
    (h : Listed IsMember entries cs) (hnodup : (entries.filterMap ConfigEntry.field?).Nodup) :
    ∃ ts, LexesAs cs ts ∧
      ∀ p, (∀ f ∈ entries.filterMap ConfigEntry.field?, p.has f = false) →
        ∀ state ∈ [ObjectState.firstKey, .key],
          Leads p state ts (entries.foldl PartialConfig.set p) .next := by
  induction h with
  | @last e cs hmember =>
    obtain ⟨ts, hlexes, hleads⟩ := exists_memberTokens hmember
    refine ⟨ts, hlexes, fun p hfresh => hleads p fun f hf => hfresh f ?_⟩
    exact List.mem_filterMap.mpr ⟨e, List.mem_cons_self .., hf⟩
  | @cons e es cs more hmember _ ih =>
    obtain ⟨ts, hlexes, hleads⟩ := exists_memberTokens hmember
    have hsub :
        (es.filterMap ConfigEntry.field?).Sublist ((e :: es).filterMap ConfigEntry.field?) :=
      (List.sublist_cons_self e es).filterMap _
    obtain ⟨us, hlexes', hleads'⟩ := ih (hnodup.sublist hsub)
    refine ⟨_, hlexes.structural .comma hlexes', fun p hfresh state hstate rest => ?_⟩
    have hp : ∀ f, e.field? = some f → p.has f = false := fun f hf =>
      hfresh f (List.mem_filterMap.mpr ⟨e, List.mem_cons_self .., hf⟩)
    have hset : ∀ f ∈ es.filterMap ConfigEntry.field?, (p.set e).has f = false := by
      intro f hf
      rw [← Bool.not_eq_true, PartialConfig.has_set]
      rintro (hhas | hfield)
      · rw [hfresh f (hsub.subset hf)] at hhas
        cases hhas
      · rw [List.filterMap_cons_some hfield, List.nodup_cons] at hnodup
        exact hnodup.1 hf
    rw [List.append_assoc, hleads p hp state hstate, List.foldl_cons]
    exact hleads' (p.set e) hset .key (by decide) rest

theorem exists_objectTokens {entries : List ConfigEntry} {cs : List Char}
    (h : Enclosed IsMember '\x7b' '\x7d' entries cs)
    (hnodup : (entries.filterMap ConfigEntry.field?).Nodup) :
    ∃ ts, LexesAs cs ts ∧ readTokens ts = .ok (entries.foldl PartialConfig.set {}, []) := by
  cases h with
  | empty hws => exact ⟨_, (LexesAs.layout hws).enclosed .beginsObject .endsObject, rfl⟩
  | listed hlisted =>
    obtain ⟨ts, hlexes, hleads⟩ := exists_membersTokens hlisted hnodup
    refine ⟨_, hlexes.enclosed .beginsObject .endsObject, ?_⟩
    rw [readTokens, hleads {} (fun f _ => by cases f <;> rfl) .firstKey (by decide), readObject]

theorem exists_itemsTokens {entries : List ConfigEntry} {cs : List Char}
    (h : Listed (fun e => Padded e.IsValue) entries cs) {f : ConfigField} {fs : List ConfigField}
    (hfields : entries.map ConfigEntry.field? <+: (f :: fs).map some) :
    ∃ ts, LexesAs cs ts ∧ ∃ t us, ts = t :: us ∧ ∃ e es, entries = e :: es ∧
      ∀ p, readField p f t = .ok (p.set e) ∧
        ∀ rest, readItems (p.set e) fs (us ++ .ends .array :: rest) =
          .ok (es.foldl PartialConfig.set (p.set e), rest) := by
  induction h generalizing f fs with
  | @last e cs hvalue =>
    obtain ⟨hf, _⟩ := List.cons_prefix_cons.mp hfields
    obtain ⟨_, hlexes, t, rfl, hread⟩ := hvalue.exists_tokens fun _ => exists_fieldToken hf
    refine ⟨_, hlexes, t, [], rfl, e, [], rfl, fun p => ⟨hread p, fun rest => ?_⟩⟩
    rw [List.nil_append, readItems, List.foldl_nil]
  | @cons e es cs more hvalue hmore ih =>
    obtain ⟨hf, hrest⟩ := List.cons_prefix_cons.mp hfields
    obtain ⟨_, hlexes, t, rfl, hread⟩ := hvalue.exists_tokens fun _ => exists_fieldToken hf
    cases fs with
    | nil => exact absurd (List.map_eq_nil_iff.mp (List.prefix_nil.mp hrest)) hmore.ne_nil
    | cons f' fs =>
      obtain ⟨_, hlexes', t', us, rfl, e', es, rfl, hitems⟩ := ih hrest
      refine ⟨t :: .comma :: t' :: us, hlexes.structural .comma hlexes', t, _, rfl, e, _, rfl,
        fun p => ⟨hread p, ?_⟩⟩
      obtain ⟨hnext, hlast⟩ := hitems (p.set e)
      intro rest
      rw [List.cons_append, List.cons_append, readItems, hnext, List.foldl_cons]
      exact hlast rest

theorem exists_arrayTokens {entries : List ConfigEntry} {cs : List Char}
    (h : Enclosed (fun e => Padded e.IsValue) '[' ']' entries cs)
    (hfields : entries.map ConfigEntry.field? <+:
      [ConfigField.separator, .label, .validate].map some) :
    ∃ ts, LexesAs cs ts ∧ readTokens ts = .ok (entries.foldl PartialConfig.set {}, []) := by
  cases h with
  | empty hws => exact ⟨_, (LexesAs.layout hws).enclosed .beginsArray .endsArray, rfl⟩
  | listed hlisted =>
    obtain ⟨_, hlexes, t, us, rfl, e, es, rfl, hread⟩ := exists_itemsTokens hlisted hfields
    refine ⟨_, hlexes.enclosed .beginsArray .endsArray, ?_⟩
    obtain ⟨hfirst, hitems⟩ := hread {}
    rw [readTokens, List.cons_append, readArray.eq_def]
    split
    · rename_i heq
      cases heq
      cases hfirst
    · rename_i heq
      cases heq
      rw [hfirst]
      exact hitems []
    · rename_i heq
      cases heq

/-! ## The codec -/

theorem isObject_toJson (c : Config) :
    IsObject [.separator c.separator, .label c.label, .validate c.validate] c.toJson.toList := by
  have hmember : ∀ (e : ConfigEntry) (cs : List Char), e.IsValue cs →
      IsMember e (Json.encode e.key ++ ':' :: cs) := fun e cs hcs =>
    .pair (padded_self (isString_encode e.key)) (padded_self hcs)
  have hseparator := hmember (.separator c.separator) _ (isString_encode c.separator)
  have hlabel := hmember (.label c.label) _ (isString_encode c.label)
  have hvalidate := hmember (.validate c.validate) (toString c.validate).toList
    (by cases c.validate <;> rfl)
  have hobject : Enclosed IsMember '\x7b' '\x7d' _ _ :=
    .listed (.cons hseparator (.cons hlabel (.last hvalidate)))
  refine padded_self ?_
  rw [toJson, String.toList_ofList]
  convert hobject using 1
  simp [ConfigEntry.key, ConfigField.key]

/-- What is read from the tokens of a text is read from the text. -/
theorem readJson_of_padded {P : List Char → Prop} {text : String} (h : Padded P text.toList)
    {p : PartialConfig} (hP : ∀ cs, P cs → ∃ ts, LexesAs cs ts ∧ readTokens ts = .ok (p, [])) :
    readJson text = .ok p.complete := by
  obtain ⟨ts, hlexes, hread⟩ := h.exists_tokens hP
  rw [readJson, hlexes.lexes.readAll_eq, hread]

end Config

namespace JsonCodec

theorem byTokens_build_eq_ok_iff {content : JsonContent} {c : Config} :
    byTokens.build content = .ok c ↔
      ∃ p, PartialConfig.ofContent content = .ok p ∧ p.complete = c := by
  simp only [byTokens]
  cases PartialConfig.ofContent content <;> simp [Except.map]

theorem byTokens_standard : byTokens.Standard where
  read := by
    intro content text c hwritten hbuild
    obtain ⟨p, hp, rfl⟩ := byTokens_build_eq_ok_iff.mp hbuild
    cases content with
    | object members =>
      obtain ⟨_, hnodup, rfl⟩ := PartialConfig.setMembers_eq_ok_iff.mp hp
      exact Config.readJson_of_padded hwritten fun _ hcs => Config.exists_objectTokens hcs hnodup
    | array values =>
      obtain ⟨hfields, rfl⟩ := PartialConfig.setValues_eq_ok_iff.mp hp
      exact Config.readJson_of_padded hwritten fun _ hcs => Config.exists_arrayTokens hcs hfields
  write := Config.isObject_toJson

/-- A member that sets no field again is taken after any others. -/
theorem byTokens_build_concat {members : List ConfigEntry} {c : Config} {e : ConfigEntry}
    (hnew : ∀ f, e.field? = some f → f ∉ members.filterMap ConfigEntry.field?)
    (h : byTokens.build (.object members) = .ok c) :
    byTokens.build (.object (members ++ [e])) = .ok (e.apply c) := by
  obtain ⟨p, hp, rfl⟩ := byTokens_build_eq_ok_iff.mp h
  obtain ⟨hfree, hnodup, rfl⟩ := PartialConfig.setMembers_eq_ok_iff.mp hp
  refine byTokens_build_eq_ok_iff.mpr ⟨_, PartialConfig.setMembers_eq_ok_iff.mpr
    ⟨fun f _ => by cases f <;> rfl, ?_, rfl⟩, ?_⟩
  · rw [List.filterMap_append]
    cases hf : e.field? with
    | none => rwa [List.filterMap_cons_none hf, List.filterMap_nil, List.append_nil]
    | some f =>
      rw [List.filterMap_cons_some hf, List.filterMap_nil]
      exact List.concat_eq_append ▸ List.Nodup.concat (hnew f hf) hnodup
  · rw [List.foldl_concat, PartialConfig.complete_set]

theorem byTokens_fillsFields : byTokens.FillsFields where
  empty_object := rfl
  field_member := by
    intro members c e f hf hnew h
    refine byTokens_build_concat (fun f' hf' => ?_) h
    cases hf.symm.trans hf'
    exact hnew
  unknown_member := by
    intro members c e hf h
    have hsame := ConfigEntry.apply_of_field?_eq_none hf c
    refine hsame ▸ byTokens_build_concat (fun f hf' => ?_) h
    rw [hf] at hf'
    cases hf'
  empty_array := rfl
  next_value := by
    intro values c e f hnext hf h
    obtain ⟨p, hp, rfl⟩ := byTokens_build_eq_ok_iff.mp h
    obtain ⟨hfields, rfl⟩ := PartialConfig.setValues_eq_ok_iff.mp hp
    have htake := List.prefix_iff_eq_take.mp hfields
    rw [List.length_map] at htake
    have hconcat : (values ++ [e]).map ConfigEntry.field? =
        (ConfigField.all.map some).take (values.length + 1) := by
      rw [List.map_append, htake, List.take_add_one, List.getElem?_map, hnext, List.map_singleton,
        hf]
      rfl
    refine byTokens_build_eq_ok_iff.mpr
      ⟨_, PartialConfig.setValues_eq_ok_iff.mpr ⟨hconcat ▸ List.take_prefix _ _, rfl⟩, ?_⟩
    · rw [List.foldl_concat, PartialConfig.complete_set]

end JsonCodec
end Inference
