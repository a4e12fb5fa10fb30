import Eleva.Foundation.Keys

/-!
# Foundation - JSON values

The values that a JSON text stands for, with what the runtime makes of them: truthiness,
the properties of an object, a value as a text, and the JSON text of a value.

Main results:

- Theorem {lit}`length_substringTo_le`: a text that is cut after a number of code units
  has at most that many characters.
-/

namespace Eleva
namespace Foundation

/-- A JSON value.  A number is given by its text and by whether it is falsy, an object by
its properties in their order. -/
inductive Json where
  | null
  | bool (b : Bool)
  | number (falsy : Bool) (text : String)
  | string (s : String)
  | array (items : List Json)
  | object (properties : List (String × Json))
deriving Repr

namespace Json

/-- Whether a value counts as true. -/
def truthy : Json → Bool
  | .null => false
  | .bool b => b
  | .number falsy _ => !falsy
  | .string s => s != ""
  | .array _ => true
  | .object _ => true

/-- {lit}`typeof value === 'object'`, for a value that counts as true. -/
def isObject : Json → Bool
  | .array _ => true
  | .object _ => true
  | _ => false

/-- {lit}`value?.key`, for a key that only an object can have. -/
def property (key : String) : Json → Option Json
  | .object properties => properties.lookup key
  | _ => none

/-! ## Texts -/

/-- Parts with commas between them. -/
def commaSeparated (parts : List String) : String :=
  String.intercalate "," parts

mutual

/-- {lit}`String(value)`. -/
def text : Json → String
  | .null => "null"
  | .bool b => if b then "true" else "false"
  | .number _ s => s
  | .string s => s
  | .array items => commaSeparated (itemTexts items)
  | .object _ => "[object Object]"

/-- The texts of the items of a list, where {lit}`null` is the empty text. -/
def itemTexts : List Json → List String
  | [] => []
  | .null :: items => "" :: itemTexts items
  | item :: items => item.text :: itemTexts items

end

/-- A hexadecimal digit in lower case. -/
def hexDigit (n : ℕ) : Char :=
  Char.ofNat (if n < 10 then 0x30 + n else 0x57 + n)

/-- A character inside a JSON string. -/
def escaped (c : Char) : List Char :=
  match c.toNat with
  | 0x22 => "\\\"".toList
  | 0x5C => "\\\\".toList
  | 0x08 => "\\b".toList
  | 0x09 => "\\t".toList
  | 0x0A => "\\n".toList
  | 0x0C => "\\f".toList
  | 0x0D => "\\r".toList
  | n =>
      if n < 0x20 then "\\u00".toList ++ [hexDigit (n / 16), hexDigit (n % 16)]
      else [c]

/-- A text as a JSON string. -/
def quoted (s : String) : String :=
  "\"" ++ String.ofList (s.toList.flatMap escaped) ++ "\""

mutual

/-- {lit}`JSON.stringify(value)`. -/
def stringify : Json → String
  | .null => "null"
  | .bool b => if b then "true" else "false"
  | .number _ s => s
  | .string s => quoted s
  | .array items => "[" ++ commaSeparated (stringifyItems items) ++ "]"
  | .object properties =>
      "\x7b" ++ commaSeparated (stringifyProperties properties) ++ "\x7d"

def stringifyItems : List Json → List String
  | [] => []
  | item :: items => item.stringify :: stringifyItems items

def stringifyProperties : List (String × Json) → List String
  | [] => []
  | (key, value) :: properties =>
      (quoted key ++ ":" ++ value.stringify) :: stringifyProperties properties

end

end Json

/-! ## Lengths in code units -/

/-- {lit}`s.length`. -/
def utf16Length (s : String) : ℕ :=
  (utf16 s).length

/-- The characters whose code units are among the first {lit}`n`.  A character whose code
units the cut would part is left out. -/
def unitsPrefix : ℕ → List Char → List Char
  | _, [] => []
  | n, c :: cs =>
      if (codeUnits c).length ≤ n then c :: unitsPrefix (n - (codeUnits c).length) cs
      else []

/-- {lit}`s.substring(0, n)`. -/
def substringTo (n : ℕ) (s : String) : String :=
  String.ofList (unitsPrefix n s.toList)

theorem length_unitsPrefix_le (cs : List Char) : ∀ n, (unitsPrefix n cs).length ≤ n := by
  induction cs with
  | nil => intro n; exact Nat.zero_le n
  | cons c cs ih =>
      intro n
      have hpos : 0 < (codeUnits c).length := List.length_pos_iff.mpr (codeUnits_ne_nil c)
      have hrest := ih (n - (codeUnits c).length)
      rw [unitsPrefix]
      split
      · rw [List.length_cons]
        omega
      · exact Nat.zero_le n

/-- A text that is cut after {lit}`n` code units has at most {lit}`n` characters. -/
theorem length_substringTo_le (n : ℕ) (s : String) : (substringTo n s).length ≤ n := by
  rw [substringTo, String.length_ofList]
  exact length_unitsPrefix_le s.toList n

end Foundation
end Eleva
