import Eleva.Foundation.JsonTrees

/-!
# Foundation - The tokens of a JSON text

The JSON text of a value, cut into its string values and the text between them, and what is left
of it when it is cut after a number of code units.

Main results:

- Theorem {lit}`Json.toList_stringify`: the JSON text is the text of the tokens.
- Theorems {lit}`Json.mem_tokens_array` and {lit}`Json.mem_tokens_object`: the strings of an array
  or object are those of the values in it.
- Theorem {lit}`prefix_unitsPrefix_iff`: a beginning of a text survives the cut exactly when its
  code units fit.
-/

namespace Eleva
namespace Foundation

/-- A string value in a JSON text, or what stands between two of them. -/
inductive JsonToken
  | text (t : String)
  | string (s : String)
deriving DecidableEq, Repr

def JsonToken.chars : JsonToken → List Char
  | text t => t.toList
  | string s => (Json.quoted s).toList

/-- A text as a JSON string, up to its closing quote. -/
def Json.opened (s : String) : List Char :=
  '"' :: s.toList.flatMap Json.escaped

theorem JsonToken.chars_string (s : String) :
    (JsonToken.string s).chars = Json.opened s ++ ['"'] := by
  simp only [JsonToken.chars, Json.quoted, Json.opened, String.toList_append, String.toList_ofList]
  rfl

/-- The text of tokens. -/
def tokenChars (tokens : List JsonToken) : List Char :=
  tokens.flatMap JsonToken.chars

theorem tokenChars_append (xs ys : List JsonToken) :
    tokenChars (xs ++ ys) = tokenChars xs ++ tokenChars ys :=
  List.flatMap_append

theorem tokenChars_cons (t : JsonToken) (ts : List JsonToken) :
    tokenChars (t :: ts) = t.chars ++ tokenChars ts :=
  List.flatMap_cons

theorem tokenChars_singleton (t : JsonToken) : tokenChars [t] = t.chars :=
  List.flatMap_singleton JsonToken.chars t

/-! ## Lists with separators -/

theorem mem_intercalate {α : Type} {x sep : α} (hx : x ≠ sep) (xss : List (List α)) :
    x ∈ [sep].intercalate xss ↔ ∃ xs ∈ xss, x ∈ xs := by
  induction xss with
  | nil => simp [List.intercalate]
  | cons xs xss ih =>
      cases xss with
      | nil => simp [List.intercalate]
      | cons ys xss =>
          rw [List.intercalate_cons_cons, List.mem_append, List.mem_append, ih]
          simp [hx]

theorem tokenChars_intercalate (t : JsonToken) (tss : List (List JsonToken)) :
    tokenChars ([t].intercalate tss) = t.chars.intercalate (tss.map tokenChars) := by
  induction tss with
  | nil => rfl
  | cons ts tss ih =>
      cases tss with
      | nil => simp [List.intercalate]
      | cons us tss =>
          rw [List.intercalate_cons_cons, tokenChars_append, tokenChars_append, ih,
            tokenChars_singleton]
          simp only [List.map_cons, List.intercalate_cons_cons]

namespace Json

/-! ## Tokens -/

mutual

def tokens : Json → List JsonToken
  | .null => [.text "null"]
  | .bool b => [.text (if b then "true" else "false")]
  | .number _ s => [.text s]
  | .string s => [.string s]
  | .array items => .text "[" :: ([.text ","].intercalate (itemTokens items) ++ [.text "]"])
  | .object properties =>
      .text "\x7b" :: ([.text ","].intercalate (propertyTokens properties) ++ [.text "\x7d"])

def itemTokens : List Json → List (List JsonToken)
  | [] => []
  | item :: items => item.tokens :: itemTokens items

def propertyTokens : List (String × Json) → List (List JsonToken)
  | [] => []
  | (key, value) :: properties =>
      (.text (quoted key ++ ":") :: value.tokens) :: propertyTokens properties

end

theorem itemTokens_eq_map (items : List Json) : itemTokens items = items.map tokens := by
  induction items with
  | nil => rfl
  | cons item items ih => rw [itemTokens, ih, List.map_cons]

theorem propertyTokens_eq_map (properties : List (String × Json)) :
    propertyTokens properties =
      properties.map fun p => .text (quoted p.1 ++ ":") :: p.2.tokens := by
  induction properties with
  | nil => rfl
  | cons p properties ih => rw [propertyTokens, ih, List.map_cons]

theorem stringifyItems_eq_map (items : List Json) :
    stringifyItems items = items.map stringify := by
  induction items with
  | nil => rfl
  | cons item items ih => rw [stringifyItems, ih, List.map_cons]

theorem stringifyProperties_eq_map (properties : List (String × Json)) :
    stringifyProperties properties =
      properties.map fun p => quoted p.1 ++ ":" ++ p.2.stringify := by
  induction properties with
  | nil => rfl
  | cons p properties ih => rw [stringifyProperties, ih, List.map_cons]

theorem toList_commaSeparated (parts : List String) :
    (commaSeparated parts).toList = [','].intercalate (parts.map String.toList) :=
  String.toList_intercalate

/-- The JSON text is the text of the tokens. -/
theorem toList_stringify (value : Json) : value.stringify.toList = tokenChars value.tokens := by
  induction value using Json.tree_induction with
  | null => rfl
  | bool b => cases b <;> rfl
  | number falsy text =>
      rw [stringify, tokens, tokenChars_singleton]
      rfl
  | string s =>
      rw [stringify, tokens, tokenChars_singleton]
      rfl
  | array items ih =>
      have hitems : (items.map stringify).map String.toList =
          (items.map tokens).map tokenChars := by
        rw [List.map_map, List.map_map]
        exact List.map_congr_left ih
      rw [stringify, tokens, stringifyItems_eq_map, itemTokens_eq_map, tokenChars_cons,
        tokenChars_append, tokenChars_intercalate, String.toList_append, String.toList_append,
        toList_commaSeparated, hitems]
      rfl
  | object properties ih =>
      have hproperties :
          (properties.map fun p => quoted p.1 ++ ":" ++ p.2.stringify).map String.toList =
            (properties.map fun p => .text (quoted p.1 ++ ":") :: p.2.tokens).map tokenChars := by
        rw [List.map_map, List.map_map]
        refine List.map_congr_left fun p hp => ?_
        rw [Function.comp_apply, Function.comp_apply, tokenChars_cons, ← ih p hp,
          String.toList_append]
        rfl
      rw [stringify, tokens, stringifyProperties_eq_map, propertyTokens_eq_map, tokenChars_cons,
        tokenChars_append, tokenChars_intercalate, String.toList_append, String.toList_append,
        toList_commaSeparated, hproperties]
      rfl

/-- The strings of an array are those of its items. -/
theorem mem_tokens_array {s : String} (items : List Json) :
    .string s ∈ (Json.array items).tokens ↔ ∃ item ∈ items, .string s ∈ item.tokens := by
  rw [tokens, itemTokens_eq_map, List.mem_cons, List.mem_append,
    mem_intercalate (JsonToken.noConfusion) _]
  simp

/-- The strings of an object are those of the values of its properties. -/
theorem mem_tokens_object {s : String} (properties : List (String × Json)) :
    .string s ∈ (Json.object properties).tokens ↔ ∃ p ∈ properties, .string s ∈ p.2.tokens := by
  rw [tokens, propertyTokens_eq_map, List.mem_cons, List.mem_append,
    mem_intercalate (JsonToken.noConfusion) _]
  simp

end Json

/-! ## A text that is cut -/

/-- A beginning of a text survives the cut exactly when its code units fit. -/
theorem prefix_unitsPrefix_iff {cs text : List Char} (h : cs <+: text) (n : ℕ) :
    cs <+: unitsPrefix n text ↔ (cs.flatMap codeUnits).length ≤ n := by
  induction cs generalizing text n with
  | nil => exact iff_of_true (List.nil_prefix) (Nat.zero_le n)
  | cons c cs ih =>
      rcases h with ⟨rest, rfl⟩
      rw [List.cons_append, unitsPrefix, List.flatMap_cons, List.length_append]
      by_cases hfits : (codeUnits c).length ≤ n
      · rw [if_pos hfits, List.prefix_cons_inj, ih (List.prefix_append cs rest)]
        omega
      · rw [if_neg hfits]
        refine iff_of_false (fun hcut => ?_) (by omega)
        cases List.prefix_nil.mp hcut

end Foundation
end Eleva
