import Inference.Config.Basic

/-!
# Inference.Config.Json

Configurations as JSON. Texts are left to a codec: it takes an object as members by name and an
array as values in the order of the fields, and makes a configuration of them. What it reads is
checked before it is used.

* `JsonCodec`: what reading and writing are left to.
* `Config.ofJson`: reads a text by way of a codec, and checks the separator.
-/

namespace Inference

inductive ConfigField where
  | separator
  | label
  | validate
  deriving DecidableEq

namespace ConfigField

def key : ConfigField → String
  | separator => "separator"
  | label => "name_prefix"
  | validate => "validate"

def all : List ConfigField := [separator, label, validate]

def ofKey? (key : String) : Option ConfigField := all.find? fun f => f.key == key

end ConfigField

/-- What may stand in a configuration: a field with its value, or a member that is not known. -/
inductive ConfigEntry where
  | separator (s : String)
  | label (s : String)
  | validate (b : Bool)
  | unknown (key : String) (h : key ∉ ["separator", "name_prefix", "validate"])

namespace ConfigEntry

def field? : ConfigEntry → Option ConfigField
  | separator _ => some .separator
  | label _ => some .label
  | validate _ => some .validate
  | unknown _ _ => none

def key : ConfigEntry → String
  | separator _ => "separator"
  | label _ => "name_prefix"
  | validate _ => "validate"
  | unknown key _ => key

def apply (c : Config) : ConfigEntry → Config
  | separator s => { c with separator := s }
  | label s => { c with label := s }
  | validate b => { c with validate := b }
  | unknown _ _ => c

end ConfigEntry

inductive JsonContent where
  | object (members : List ConfigEntry)
  | array (values : List ConfigEntry)

structure JsonCodec where
  Fault : Type
  message : Fault → String
  /-- The configuration that is made of the content of a text. -/
  build : JsonContent → Except Fault Config
  read : String → Except Fault Config
  write : Config → String

inductive ConfigError (ε : Type) where
  | parse (e : ε)
  | invalidSeparator (e : InvalidSeparator)
  deriving DecidableEq

def ConfigError.message {ε : Type} (faultMessage : ε → String) : ConfigError ε → String
  | parse e => "invalid synthesis config: " ++ faultMessage e
  | invalidSeparator e => e.message

def Config.ofJson (k : JsonCodec) (source : String) : Except (ConfigError k.Fault) Config :=
  match k.read source with
  | .error e => .error (.parse e)
  | .ok c =>
    match c.check with
    | .error e => .error (.invalidSeparator e)
    | .ok () => .ok c

end Inference
