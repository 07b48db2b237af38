import Inference.Config.Json
import Inference.Json.Token

/-!
# Inference.Config.Reader

A codec for configurations that takes texts apart into tokens. It writes an object with the three
fields in a fixed order, and reads any object, in which fields may be missing, come in any order and
stand among unknown members, and an array of at most three values in the order of the fields.

* `Config.toJson`: the written form.
* `Config.readJson`: reads a text. Tokens are read from the front, and the first fault found is the
  answer.
* `JsonCodec.byTokens`: the codec.
-/

namespace Inference

/-- A value found where one of another kind is wanted. -/
inductive FoundValue where
  | literal (l : Json.Literal)
  | number (n : Json.Number)
  | text (s : String)
  | array
  | object
  deriving DecidableEq

def FoundValue.describe : FoundValue → String
  | literal .null => "null"
  | literal (.bool b) => "boolean `" ++ toString b ++ "`"
  | number (.integer n) => "integer `" ++ (Json.Number.integer n).text ++ "`"
  | number (.double s d) => "floating point `" ++ (Json.Number.double s d).text ++ "`"
  | text s => "string " ++ Text.quote s
  | array => "sequence"
  | object => "map"

inductive WantedValue where
  | config
  | text
  | bool
  deriving DecidableEq

def WantedValue.describe : WantedValue → String
  | config => "struct SynthesisConfig"
  | text => "a string"
  | bool => "a boolean"

inductive ConfigFault where
  | malformed
  | wrongType (found : FoundValue) (wanted : WantedValue)
  | duplicateField (field : ConfigField)
  deriving DecidableEq

def ConfigFault.message : ConfigFault → String
  | malformed => "malformed"
  | wrongType found wanted =>
    "invalid type: " ++ found.describe ++ ", expected " ++ wanted.describe
  | duplicateField field => "duplicate field `" ++ field.key ++ "`"

structure PartialConfig where
  separator : Option String := none
  label : Option String := none
  validate : Option Bool := none
  deriving DecidableEq

namespace PartialConfig

def has (p : PartialConfig) : ConfigField → Bool
  | .separator => p.separator.isSome
  | .label => p.label.isSome
  | .validate => p.validate.isSome

/-- The configuration with defaults for what is missing. -/
def complete (p : PartialConfig) : Config :=
  let default : Config := {}
  ⟨p.separator.getD default.separator, p.label.getD default.label,
    p.validate.getD default.validate⟩

def set (p : PartialConfig) : ConfigEntry → PartialConfig
  | .separator s => { p with separator := some s }
  | .label s => { p with label := some s }
  | .validate b => { p with validate := some b }
  | .unknown _ _ => p

/-- Sets the fields of the members of an object. A field may be given only once. -/
def setMembers (p : PartialConfig) : List ConfigEntry → Except ConfigFault PartialConfig
  | [] => .ok p
  | e :: es =>
    match e.field?.filter p.has with
    | some f => .error (.duplicateField f)
    | none => (p.set e).setMembers es

/-- Sets fields, in their order, to the values of an array. -/
def setValues (p : PartialConfig) :
    List ConfigField → List ConfigEntry → Except ConfigFault PartialConfig
  | _, [] => .ok p
  | f :: fs, e :: es => if e.field? = some f then (p.set e).setValues fs es else .error .malformed
  | [], _ :: _ => .error .malformed

def ofContent : JsonContent → Except ConfigFault PartialConfig
  | .object members => setMembers {} members
  | .array values => setValues {} ConfigField.all values

end PartialConfig

namespace Config

open Json

def toJson (c : Config) : String :=
  let member (f : ConfigField) (value : List Char) : List Char :=
    Json.encode f.key ++ ':' :: value
  String.ofList <|
    '\x7b' :: member .separator (Json.encode c.separator) ++
      ',' :: member .label (Json.encode c.label) ++
      ',' :: member .validate (toString c.validate).toList ++ ['\x7d']

/-- The fault of a value that starts with the token, where another kind is wanted. A value that
cannot be read at all is malformed. -/
def wrongValue (wanted : WantedValue) : Token → ConfigFault
  | .begins .array => .wrongType .array wanted
  | .begins .object => .wrongType .object wanted
  | .literal l => .wrongType (.literal l) wanted
  | .text pieces =>
    match decode? pieces with
    | some s => .wrongType (.text s) wanted
    | none => .malformed
  | .number n =>
    match n.value? with
    | some v => .wrongType (.number v) wanted
    | none => .malformed
  | _ => .malformed

def readText : Token → Except ConfigFault String
  | .text pieces =>
    match decode? pieces with
    | some s => .ok s
    | none => .error .malformed
  | t => .error (wrongValue .text t)

def readBool : Token → Except ConfigFault Bool
  | .literal (.bool b) => .ok b
  | t => .error (wrongValue .bool t)

/-- Sets a field to the value that is the token. -/
def readField (p : PartialConfig) (f : ConfigField) (t : Token) :
    Except ConfigFault PartialConfig :=
  match f with
  | .separator => (readText t).map fun s => { p with separator := some s }
  | .label => (readText t).map fun s => { p with label := some s }
  | .validate => (readBool t).map fun b => { p with validate := some b }

/-! ## Reading objects and arrays -/

/-- Where the reader stands in an object. -/
inductive ObjectState where
  /-- A key or the end of the object. -/
  | firstKey
  | key
  /-- The colon after the key of a field, or of an unknown member. -/
  | colon (f : Option ConfigField)
  | value (f : ConfigField)
  | skipping (s : Skipping)
  /-- A comma or the end of the object. -/
  | next
  deriving DecidableEq

/-- Takes note of a key. A field may be given only once. -/
def readKey (p : PartialConfig) (pieces : List Piece) : Except ConfigFault ObjectState :=
  match decode? pieces with
  | none => .error .malformed
  | some key =>
    match ConfigField.ofKey? key with
    | none => .ok (.colon none)
    | some f => if p.has f then .error (.duplicateField f) else .ok (.colon (some f))

/-- Reads an object whose opening bracket is already read. What comes after it is given back. -/
def readObject (p : PartialConfig) :
    ObjectState → List Token → Except ConfigFault (PartialConfig × List Token)
  | .firstKey, .ends .object :: ts | .next, .ends .object :: ts => .ok (p, ts)
  | .firstKey, .text pieces :: ts | .key, .text pieces :: ts =>
    match readKey p pieces with
    | .error e => .error e
    | .ok state => readObject p state ts
  | .colon (some f), .colon :: ts => readObject p (.value f) ts
  | .colon none, .colon :: ts => readObject p (.skipping {}) ts
  | .value f, t :: ts =>
    match readField p f t with
    | .error e => .error e
    | .ok p => readObject p .next ts
  | .skipping s, t :: ts =>
    match s.step t with
    | none => .error .malformed
    | some .whole => readObject p .next ts
    | some (.partly s) => readObject p (.skipping s) ts
  | .next, .comma :: ts => readObject p .key ts
  | _, _ => .error .malformed

/-- Reads the rest of an array, whose values are those of the given fields, once a comma or its
end is due. -/
def readItems (p : PartialConfig) :
    List ConfigField → List Token → Except ConfigFault (PartialConfig × List Token)
  | _, .ends .array :: ts => .ok (p, ts)
  | f :: fs, .comma :: t :: ts =>
    match readField p f t with
    | .error e => .error e
    | .ok p => readItems p fs ts
  | _, _ => .error .malformed

def readArray : List Token → Except ConfigFault (PartialConfig × List Token)
  | .ends .array :: ts => .ok ({}, ts)
  | t :: ts =>
    match readField {} .separator t with
    | .error e => .error e
    | .ok p => readItems p [.label, .validate] ts
  | [] => .error .malformed

def readTokens : List Token → Except ConfigFault (PartialConfig × List Token)
  | .begins .object :: ts => readObject {} .firstKey ts
  | .begins .array :: ts => readArray ts
  | t :: _ => .error (wrongValue .config t)
  | [] => .error .malformed

/-- Reads a configuration. Nothing but layout may come after it. -/
def readJson (source : String) : Except ConfigFault Config :=
  match readTokens (Token.readAll source.toList) with
  | .error e => .error e
  | .ok (p, []) => .ok p.complete
  | .ok (_, _ :: _) => .error .malformed

end Config

namespace JsonCodec

def byTokens : JsonCodec where
  Fault := ConfigFault
  message := ConfigFault.message
  build content := (PartialConfig.ofContent content).map PartialConfig.complete
  read := Config.readJson
  write := Config.toJson

end JsonCodec
end Inference
