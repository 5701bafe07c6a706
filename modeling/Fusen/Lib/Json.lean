import Fusen.Lib.Assoc
import Fusen.Lib.Text

/-!
# JSON values

A number is its canonical text.  An object lists its fields in the order they are
written; `Json.DistinctKeys` says that no object inside a value repeats a key.
`Json.print` is the compact text of a value.
-/

namespace Lib

inductive Json
  | null
  | bool (value : Bool)
  | number (text : Text)
  | string (value : Text)
  | array (items : List Json)
  | object (fields : List (Text × Json))

namespace Json

mutual

def DistinctKeys : Json → Prop
  | null | bool _ | number _ | string _ => True
  | array items => DistinctItems items
  | object fields => (fields.map Prod.fst).Nodup ∧ DistinctFields fields

def DistinctItems : List Json → Prop
  | [] => True
  | v :: items => v.DistinctKeys ∧ DistinctItems items

def DistinctFields : List (Text × Json) → Prop
  | [] => True
  | (_, v) :: fields => v.DistinctKeys ∧ DistinctFields fields

end

mutual

def decidableDistinctKeys : (v : Json) → Decidable v.DistinctKeys
  | null | bool _ | number _ | string _ => isTrue trivial
  | array items => decidableDistinctItems items
  | object fields => @instDecidableAnd _ _ inferInstance (decidableDistinctFields fields)

def decidableDistinctItems : (items : List Json) → Decidable (DistinctItems items)
  | [] => isTrue trivial
  | v :: items => @instDecidableAnd _ _ (decidableDistinctKeys v) (decidableDistinctItems items)

def decidableDistinctFields : (fields : List (Text × Json)) → Decidable (DistinctFields fields)
  | [] => isTrue trivial
  | (_, v) :: fields =>
    @instDecidableAnd _ _ (decidableDistinctKeys v) (decidableDistinctFields fields)

end

instance (v : Json) : Decidable v.DistinctKeys := decidableDistinctKeys v

/-! ## Compact text -/

def lowerHexDigit (n : Nat) : Char :=
  if n < 10 then Char.ofNat (48 + n) else Char.ofNat (87 + n)

/-- Only quotes, backslashes and characters below U+0020 are escaped. -/
def escapeChar (c : Char) : Text :=
  if c = '"' then ['\\', '"']
  else if c = '\\' then ['\\', '\\']
  else if c.toNat = 8 then ['\\', 'b']
  else if c.toNat = 12 then ['\\', 'f']
  else if c = '\n' then ['\\', 'n']
  else if c = '\r' then ['\\', 'r']
  else if c = '\t' then ['\\', 't']
  else if c.toNat < 32 then
    ['\\', 'u', '0', '0', lowerHexDigit (c.toNat / 16), lowerHexDigit (c.toNat % 16)]
  else [c]

def printString (s : Text) : Text := '"' :: s.flatMap escapeChar ++ ['"']

mutual

def print : Json → Text
  | null => "null".toList
  | bool true => "true".toList
  | bool false => "false".toList
  | number text => text
  | string value => printString value
  | array [] => "[]".toList
  | array (v :: items) => '[' :: (print v ++ printItems items)
  | object [] => "{}".toList
  | object ((k, v) :: fields) => '{' :: (printString k ++ ':' :: (print v ++ printFields fields))

/-- The items behind the first one, with the closing bracket. -/
def printItems : List Json → Text
  | [] => [']']
  | v :: items => ',' :: (print v ++ printItems items)

def printFields : List (Text × Json) → Text
  | [] => ['}']
  | (k, v) :: fields => ',' :: (printString k ++ ':' :: (print v ++ printFields fields))

end

end Json

end Lib
