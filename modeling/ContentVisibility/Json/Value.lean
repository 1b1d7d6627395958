import ContentVisibility.Json.Number
import ContentVisibility.Numerals

/-!
# JSON values

* `Value`: a value whose objects keep the order of their members;
* `Value.chars`, `Value.text`: the compact written form;
* `stringChars`: a string between quotes, with only quotes, backslashes and controls escaped;
* `Members.put`: a repeated key keeps its first place and takes the last value.
-/

namespace ContentVisibility.Json

/-- A JSON value. -/
inductive Value where
  | null
  | bool (value : Bool)
  | number (value : Number)
  | string (value : String)
  | array (items : List Value)
  | object (members : List (String × Value))
  deriving Repr

/-! ## Written strings -/

def charEscaped (c : Char) : List Char :=
  if c = '"' then ['\\', '"']
  else if c = '\\' then ['\\', '\\']
  else if c.toNat < 0x20 then
    if c = '\x08' then ['\\', 'b']
    else if c = '\t' then ['\\', 't']
    else if c = '\n' then ['\\', 'n']
    else if c = '\x0c' then ['\\', 'f']
    else if c = '\r' then ['\\', 'r']
    else ['\\', 'u'] ++ Text.hexWritten 4 c.toNat
  else [c]

def stringChars (s : String) : List Char :=
  '"' :: s.toList.flatMap charEscaped ++ ['"']

def commaSeparated : List (List Char) → List Char
  | [] => []
  | [item] => item
  | item :: items => item ++ ',' :: commaSeparated items

/-! ## Written values -/

namespace Value

mutual

/-- The compact written form, as characters. -/
def chars : Value → List Char
  | null => "null".toList
  | bool true => "true".toList
  | bool false => "false".toList
  | number n => n.chars
  | string s => stringChars s
  | array items => '[' :: commaSeparated (itemsChars items) ++ [']']
  | object members => '{' :: commaSeparated (membersChars members) ++ ['}']

def itemsChars : List Value → List (List Char)
  | [] => []
  | item :: items => item.chars :: itemsChars items

def membersChars : List (String × Value) → List (List Char)
  | [] => []
  | (key, value) :: members => (stringChars key ++ ':' :: value.chars) :: membersChars members

end

/-- The compact written form. -/
def text (v : Value) : String := String.ofList v.chars

/-- What a value is called when another kind of value was expected. -/
def article : Value → String
  | null => "null"
  | bool _ => "a boolean"
  | number _ => "a number"
  | string _ => "a string"
  | array _ => "an array"
  | object _ => "an object"

end Value

/-! ## Members of an object -/

/-- The members with one more put in: a key already there keeps its place and takes the value. -/
def Members.put (key : String) (value : α) : List (String × α) → List (String × α)
  | [] => [(key, value)]
  | (k, v) :: members => if k = key then (k, value) :: members else (k, v) :: Members.put key value members

def Members.ofList (members : List (String × α)) : List (String × α) :=
  members.foldl (fun kept (key, value) => Members.put key value kept) []

/-- The value of the member with this key. -/
def Members.get? (key : String) (members : List (String × α)) : Option α :=
  (members.find? fun member => member.1 == key).map Prod.snd

end ContentVisibility.Json
