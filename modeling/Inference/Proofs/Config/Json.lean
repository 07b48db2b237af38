import Inference.Proofs.Config.Reader
import Mathlib.Data.List.Induction

/-!
# Inference.Proofs.Config.Json

Reading configurations undoes writing them, by way of any codec that reads and writes by the grammar
and fills in fields. What is read depends on the entries of a text alone.

* `Config.ofEntries`: the configuration with the entries, and defaults for the rest.
* `build_object`, `build_array`: it is what a codec makes of the entries.
* `ofJson_text`: the configuration is read, and its separator is checked.
-/

namespace Inference

open Json Grammar

/-- The configuration with the entries, and with defaults for the fields without one. -/
def Config.ofEntries (entries : List ConfigEntry) : Config := entries.foldl ConfigEntry.apply {}

theorem Config.ofEntries_concat (entries : List ConfigEntry) (e : ConfigEntry) :
    Config.ofEntries (entries ++ [e]) = e.apply (Config.ofEntries entries) :=
  List.foldl_concat ..

namespace JsonCodec

variable {k : JsonCodec}

theorem FillsFields.build_object (h : k.FillsFields) {members : List ConfigEntry}
    (hnodup : (members.filterMap ConfigEntry.field?).Nodup) :
    k.build (.object members) = .ok (Config.ofEntries members) := by
  induction members using List.reverseRecOn with
  | nil => exact h.empty_object
  | append_singleton members e ih =>
    rw [Config.ofEntries_concat]
    cases hf : e.field? with
    | none =>
      rw [List.filterMap_append, List.filterMap_cons_none hf, List.filterMap_nil,
        List.append_nil] at hnodup
      rw [ConfigEntry.apply_of_field?_eq_none hf]
      exact h.unknown_member hf (ih hnodup)
    | some f =>
      rw [List.filterMap_append, List.filterMap_cons_some hf, List.filterMap_nil,
        List.nodup_append] at hnodup
      obtain ⟨hmembers, _, hapart⟩ := hnodup
      have hnew : f ∉ members.filterMap ConfigEntry.field? := fun hmem =>
        hapart f hmem f (List.mem_singleton_self f) rfl
      exact h.field_member hf hnew (ih hmembers)

theorem FillsFields.build_array (h : k.FillsFields) {values : List ConfigEntry}
    (hfields : values.map ConfigEntry.field? <+: ConfigField.all.map some) :
    k.build (.array values) = .ok (Config.ofEntries values) := by
  induction values using List.reverseRecOn with
  | nil => exact h.empty_array
  | append_singleton values e ih =>
    rw [List.map_append] at hfields
    have hvalues : values.map ConfigEntry.field? <+: ConfigField.all.map some :=
      (List.prefix_append _ _).trans hfields
    obtain ⟨rest, hrest⟩ := hfields
    have hget : (ConfigField.all.map some)[values.length]? = some e.field? := by
      rw [← hrest]
      simp
    rw [List.getElem?_map] at hget
    obtain ⟨f, hf, hfield⟩ := Option.map_eq_some_iff.mp hget
    rw [Config.ofEntries_concat]
    exact h.next_value hf hfield.symm (ih hvalues)

end JsonCodec

namespace Config

/-- The configuration is read from the text, provided its separator is one token. -/
def ReadFrom (k : JsonCodec) (c : Config) (text : String) : Prop :=
  (c.check = .ok () → ofJson k text = .ok c) ∧
    (c.check ≠ .ok () → ofJson k text = .error (.invalidSeparator ⟨c.separator⟩))

theorem check_eq_error {c : Config} {e : InvalidSeparator} (h : c.check = .error e) :
    e = ⟨c.separator⟩ := by
  rw [check] at h
  split at h
  · cases h
    rfl
  · cases h

theorem readFrom_of_read {k : JsonCodec} {c : Config} {text : String} (h : k.read text = .ok c) :
    c.ReadFrom k text := by
  rw [ReadFrom, ofJson, h]
  cases hcheck : c.check with
  | ok _ => simp [hcheck]
  | error e => simp [hcheck, check_eq_error hcheck]

/-- With a codec that reads and writes by the grammar and fills in fields, a configuration is read
back from what is written of it. It is read just the same from every object with each of its fields
at most once, in any order and among any unknown members, and from every array of its first fields;
the fields that are missing have their defaults. When the separator is not one token, this is the
error, and it tells the separator. -/
theorem ofJson_text (k : JsonCodec) (hstandard : k.Standard) (hfields : k.FillsFields) :
    (∀ c : Config, c.ReadFrom k (k.write c)) ∧
    (∀ entries text, IsObject entries text.toList →
      (entries.filterMap ConfigEntry.field?).Nodup → (ofEntries entries).ReadFrom k text) ∧
    ∀ (c : Config) entries text,
      entries <+: [.separator c.separator, .label c.label, .validate c.validate] →
      IsArray entries text.toList → (ofEntries entries).ReadFrom k text := by
  have hobjects : ∀ entries text, IsObject entries text.toList →
      (entries.filterMap ConfigEntry.field?).Nodup → (ofEntries entries).ReadFrom k text := by
    intro entries text hwritten hnodup
    refine readFrom_of_read (hstandard.read ?_ (hfields.build_object hnodup))
    exact hwritten
  refine ⟨fun c => ?_, hobjects, fun c entries text hinitial hwritten => ?_⟩
  · have hnodup : ([ConfigEntry.separator c.separator, .label c.label,
        .validate c.validate].filterMap ConfigEntry.field?).Nodup := by
      change [ConfigField.separator, .label, .validate].Nodup
      decide
    exact hobjects _ _ (hstandard.write c) hnodup
  · have hbuild := hfields.build_array (hinitial.map ConfigEntry.field?)
    refine readFrom_of_read (hstandard.read ?_ hbuild)
    exact hwritten

theorem ofJson_text_sample :
    JsonCodec.byTokens.Standard ∧ JsonCodec.byTokens.FillsFields ∧
    ofJson .byTokens
      "\x7b\"more\" : [1.5,\x7b\x7d],\n\"validate\":false,\"separator\":\"\\uD83d\\ude00\"\x7d" =
      .ok ⟨"😀", "and", false⟩ ∧
    ofJson .byTokens "[\"a b\"]" = .error (.invalidSeparator ⟨"a b"⟩) := by
  have hnone : Layout [] := fun _ hc => by cases hc
  have hspace : Layout [' '] := by simp [Layout]
  have hbreak : Layout ['\n'] := by simp [Layout]
  have hnumber : IsNumber ['1', '.', '5'] :=
    @IsNumber.signed [] ['1'] ['.', '5'] [] (by decide) (.positive (by simp [Digits]) (by decide))
      (.some (by decide) (by simp [Digits])) .none
  have hlist : Written .value ['[', '1', '.', '5', ',', '\x7b', '\x7d', ']'] :=
    @Written.array ['1', '.', '5', ',', '\x7b', '\x7d'] <|
      @Written.elements ['1', '.', '5'] ['\x7b', '\x7d']
        (@Written.element [] ['1', '.', '5'] [] hnone (.number hnumber) hnone)
        (.lastElement (@Written.element [] ['\x7b', '\x7d'] [] hnone (.emptyObject hnone) hnone))
  have hhigh : HexUnit ['D', '8', '3', 'd'] 0xd83d :=
    @HexUnit.digits _ _ _ _ 13 8 3 13 (.inr rfl) (.inl rfl) (.inl rfl) (.inl rfl)
  have hlow : HexUnit ['d', 'e', '0', '0'] 0xde00 :=
    @HexUnit.digits _ _ _ _ 13 14 0 0 (.inl rfl) (.inl rfl) (.inl rfl) (.inl rfl)
  have hface : IsString "😀" _ := .quoted (@Spells.pair '😀' _ _ [] [] (by decide) hhigh hlow .nil)
  have hmore : IsMember (.unknown "more" (by decide)) _ :=
    .pair (.around hnone (isString_encode "more") hspace) (.around hspace hlist hnone)
  have hvalidate : IsMember (.validate false) _ :=
    .pair (.around hbreak (isString_encode "validate") hnone) (padded_self rfl)
  have hseparator : IsMember (.separator "😀") _ :=
    .pair (padded_self (isString_encode "separator")) (padded_self hface)
  have hobject : IsObject _ _ :=
    padded_self (.listed (.cons hmore (.cons hvalidate (.last hseparator))))
  have harray : IsArray [.separator "a b"] _ :=
    padded_self (.listed (.last (padded_self (isString_encode "a b"))))
  obtain ⟨_, hobjects, harrays⟩ :=
    ofJson_text .byTokens JsonCodec.byTokens_standard JsonCodec.byTokens_fillsFields
  refine ⟨JsonCodec.byTokens_standard, JsonCodec.byTokens_fillsFields, ?_, ?_⟩
  · refine (hobjects [.unknown "more" (by decide), .validate false, .separator "😀"] _ ?_
      (by decide)).1 (by decide)
    convert hobject using 1
    decide +kernel
  · refine (harrays ⟨"a b", "", true⟩ [.separator "a b"] _ ⟨_, rfl⟩ ?_).2 (by decide)
    convert harray using 1
    decide +kernel

end Config
end Inference
