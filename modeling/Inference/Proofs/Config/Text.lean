import Inference.Config.Json
import Inference.Proofs.Json.Grammar

/-!
# Inference.Proofs.Config.Text

The texts of configurations, and what is asked of a codec. A text is described by its entries: the
order of the members, the layout between the tokens, the escapes in strings and what unknown members
hold are free.

* `IsObject`, `IsArray`: the texts that hold the entries of a configuration.
* `JsonCodec.Standard`: texts are read and written as the grammar has it.
* `JsonCodec.FillsFields`: how a configuration is made of entries, one entry at a time.
-/

namespace Inference

open Json Grammar

namespace ConfigEntry

def IsValue : ConfigEntry → List Char → Prop
  | separator s, cs | label s, cs => IsString s cs
  | validate true, cs => cs = ['t', 'r', 'u', 'e']
  | validate false, cs => cs = ['f', 'a', 'l', 's', 'e']
  | unknown _ _, cs => Written .value cs

theorem apply_of_field?_eq_none {e : ConfigEntry} (h : e.field? = none) (c : Config) :
    e.apply c = c := by
  cases e with
  | unknown key hkey => rfl
  | _ => cases h

end ConfigEntry

inductive Padded (P : List Char → Prop) : List Char → Prop where
  | around {ws cs ws' : List Char} : Layout ws → P cs → Layout ws' → Padded P (ws ++ (cs ++ ws'))

inductive IsMember (e : ConfigEntry) : List Char → Prop where
  | pair {key cs : List Char} : Padded (IsString e.key) key → Padded e.IsValue cs →
      IsMember e (key ++ ':' :: cs)

inductive Listed (P : ConfigEntry → List Char → Prop) : List ConfigEntry → List Char → Prop where
  | last {e : ConfigEntry} {cs : List Char} : P e cs → Listed P [e] cs
  | cons {e : ConfigEntry} {es : List ConfigEntry} {cs more : List Char} : P e cs →
      Listed P es more → Listed P (e :: es) (cs ++ ',' :: more)

inductive Enclosed (P : ConfigEntry → List Char → Prop) (first last : Char) :
    List ConfigEntry → List Char → Prop where
  | empty {ws : List Char} : Layout ws → Enclosed P first last [] (first :: (ws ++ [last]))
  | listed {es : List ConfigEntry} {cs : List Char} : Listed P es cs →
      Enclosed P first last es (first :: (cs ++ [last]))

/-- The text is an object whose members are the entries, in this order. -/
def IsObject (entries : List ConfigEntry) (cs : List Char) : Prop :=
  Padded (Enclosed IsMember '\x7b' '\x7d' entries) cs

/-- The text is an array of the values of the entries, in this order. -/
def IsArray (entries : List ConfigEntry) (cs : List Char) : Prop :=
  Padded (Enclosed (fun e => Padded e.IsValue) '[' ']' entries) cs

theorem padded_self {P : List Char → Prop} {cs : List Char} (h : P cs) : Padded P cs := by
  have hempty : Layout [] := fun _ hc => by cases hc
  have haround := Padded.around hempty h hempty
  rwa [List.nil_append, List.append_nil] at haround

namespace JsonContent

def IsWritten : JsonContent → List Char → Prop
  | object members => IsObject members
  | array values => IsArray values

def ofConfig (c : Config) : JsonContent :=
  object [.separator c.separator, .label c.label, .validate c.validate]

end JsonContent

namespace JsonCodec

/-- Texts stand for what the grammar says they stand for. -/
structure Standard (k : JsonCodec) : Prop where
  read : ∀ {content : JsonContent} {text : String} {c : Config},
    content.IsWritten text.toList → k.build content = .ok c → k.read text = .ok c
  write : ∀ c : Config, (JsonContent.ofConfig c).IsWritten (k.write c).toList

/-- A member sets the field of its name, and the values of an array set the fields in their order.
Unknown members are passed over, and a field that is not set has its default. -/
structure FillsFields (k : JsonCodec) : Prop where
  empty_object : k.build (.object []) = .ok {}
  field_member : ∀ {members : List ConfigEntry} {c : Config} {e : ConfigEntry} {f : ConfigField},
    e.field? = some f → f ∉ members.filterMap ConfigEntry.field? →
    k.build (.object members) = .ok c → k.build (.object (members ++ [e])) = .ok (e.apply c)
  unknown_member : ∀ {members : List ConfigEntry} {c : Config} {e : ConfigEntry},
    e.field? = none → k.build (.object members) = .ok c →
    k.build (.object (members ++ [e])) = .ok c
  empty_array : k.build (.array []) = .ok {}
  next_value : ∀ {values : List ConfigEntry} {c : Config} {e : ConfigEntry} {f : ConfigField},
    ConfigField.all[values.length]? = some f → e.field? = some f →
    k.build (.array values) = .ok c → k.build (.array (values ++ [e])) = .ok (e.apply c)

end JsonCodec
end Inference
