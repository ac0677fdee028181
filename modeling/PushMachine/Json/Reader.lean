import PushMachine.Json.Token

/-! # Reading JSON text

A text is read in two steps. `Json.Written.ofText?` finds the tree that is written there, with
repeated keys in place and leaves that have no value; `Json.Written.toJson?` then takes the values,
keeps the last of fields with one name, and refuses trees that are nested too deeply. Whoever wants
only some fields of an object reads them off the written tree and leaves the others unread. -/

namespace PushMachine.Json

/-- A JSON tree as it is written. -/
inductive Written where
  /-- The literal `null`. -/
  | null
  /-- A truth value. -/
  | bool (b : Bool)
  /-- A number, or `none` if no double is large enough for it. -/
  | number (n : Option JsonNumber)
  /-- A string, or `none` if its escapes form no characters. -/
  | string (s : Option String)
  /-- An array. -/
  | array (items : List Written)
  /-- An object, with its fields in the order of the text. -/
  | object (fields : List (Option String × Written))

/-- A container whose closing mark has not been read yet; its parts are held last first. -/
inductive Pending where
  /-- An array and its items so far. -/
  | array (items : List Written)
  /-- An object, its fields so far, and the key of the field that is being read. -/
  | object (fields : List (Option String × Written)) (key : Option String)

/-- What the next token has to be. -/
inductive Want where
  /-- A value. -/
  | value
  /-- A value, or the end of an array without items. -/
  | valueOrEnd
  /-- The key of a field. -/
  | key
  /-- The key of a field, or the end of an object without fields. -/
  | keyOrEnd
  /-- The colon behind a key. -/
  | colon
  /-- A comma, or the end of the innermost container. -/
  | separator
  /-- Nothing: the tree is complete. -/
  | nothing (tree : Written)

/-- How far a text has been read: the containers still open, innermost first, and what comes
next. -/
structure Progress where
  /-- The open containers. -/
  pending : List Pending
  /-- What the next token has to be. -/
  want : Want

/-- A value has been read: it goes into the innermost container of `pending`, or it is the whole
tree. -/
def Progress.complete (pending : List Pending) (tree : Written) : Progress :=
  match pending with
  | [] => ⟨[], .nothing tree⟩
  | .array items :: outer => ⟨.array (tree :: items) :: outer, .separator⟩
  | .object fields key :: outer => ⟨.object ((key, tree) :: fields) key :: outer, .separator⟩

/-- Reads a token where a value may start; `none` if none starts with it. -/
def Progress.value? (pending : List Pending) : Token → Option Progress
  | .null => some (complete pending .null)
  | .bool b => some (complete pending (.bool b))
  | .number n => some (complete pending (.number n))
  | .string s => some (complete pending (.string s))
  | .openBracket => some ⟨.array [] :: pending, .valueOrEnd⟩
  | .openBrace => some ⟨.object [] none :: pending, .keyOrEnd⟩
  | _ => none

/-- Reads the token that ends the innermost container, if it is the right one. -/
def Progress.close? (pending : List Pending) : Token → Option Progress
  | .closeBracket =>
    match pending with
    | .array items :: outer => some (complete outer (.array items.reverse))
    | _ => none
  | .closeBrace =>
    match pending with
    | .object fields _ :: outer => some (complete outer (.object fields.reverse))
    | _ => none
  | _ => none

/-- Reads the key of a field. -/
def Progress.key? (pending : List Pending) : Token → Option Progress
  | .string key =>
    match pending with
    | .object fields _ :: outer => some ⟨.object fields key :: outer, .colon⟩
    | _ => none
  | _ => none

/-- Reads one token, as `progress.want` says. -/
def Progress.next? (progress : Progress) (token : Token) : Option Progress :=
  match progress.want with
  | .value => value? progress.pending token
  | .valueOrEnd => close? progress.pending token <|> value? progress.pending token
  | .key => key? progress.pending token
  | .keyOrEnd => close? progress.pending token <|> key? progress.pending token
  | .colon =>
    match token with
    | .colon => some ⟨progress.pending, .value⟩
    | _ => none
  | .separator =>
    match token, progress.pending with
    | .comma, .array _ :: _ => some ⟨progress.pending, .value⟩
    | .comma, .object _ _ :: _ => some ⟨progress.pending, .key⟩
    | token, pending => close? pending token
  | .nothing _ => none

/-- The tree written in a text, with nothing but blanks around it: its `tokens?` taken by
`Progress.next?` one after another. -/
def Written.ofText? (text : String) : Option Written := do
  let tokens ← tokens? text.toList
  let progress ← tokens.foldlM Progress.next? ⟨[], .value⟩
  match progress.want with
  | .nothing tree => some tree
  | _ => none

mutual

/-- The tree that a written tree stands for, if at most `levels` containers are nested in it and
every leaf has a value. -/
def Written.toJson? (levels : Nat) : Written → Option Json
  | .null => some .null
  | .bool b => some (.bool b)
  | .number n => n.map Json.number
  | .string s => s.map Json.string
  | .array items =>
    if levels = 0 then none else (Written.itemsToJson? (levels - 1) items).map Json.array
  | .object fields =>
    if levels = 0 then none
    else (Written.fieldsToJson? (levels - 1) fields).map fun read => .object (sortFields read)

/-- The items of a written array, by `Written.toJson?`. -/
def Written.itemsToJson? (levels : Nat) : List Written → Option (List Json)
  | [] => some []
  | item :: rest => do
    let item ← Written.toJson? levels item
    let rest ← Written.itemsToJson? levels rest
    return item :: rest

/-- The fields of a written object, by `Written.toJson?` and in the order of the text. -/
def Written.fieldsToJson? (levels : Nat) :
    List (Option String × Written) → Option (List (String × Json))
  | [] => some []
  | (key, value) :: rest => do
    let key ← key
    let value ← Written.toJson? levels value
    let rest ← Written.fieldsToJson? levels rest
    return (key, value) :: rest

end

/-- The most containers that may be nested in one another. -/
def maxLevels : Nat := 127

/-- **Reads a JSON text** as a tree, with at most `maxLevels` containers in one another. -/
def parse? (text : String) : Option Json := do
  (← Written.ofText? text).toJson? maxLevels

end PushMachine.Json
