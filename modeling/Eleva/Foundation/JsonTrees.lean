import Eleva.Foundation.Json

/-!
# Foundation - JSON values as trees

Recursion through the arrays and objects of a JSON value: the induction rule, the value with
every string replaced, and the keys that occur in it.

Main results:

- Theorem {lit}`Json.tree_induction`: what holds of every scalar, and of an array or object when
  it holds of what is in it, holds of every value.
- Theorem {lit}`Json.mapStrings_object`: replacing strings keeps the keys of an object.
-/

namespace Eleva
namespace Foundation
namespace Json

/-- Induction over the values inside arrays and objects. -/
theorem tree_induction {P : Json → Prop} (null : P .null) (bool : ∀ b, P (.bool b))
    (number : ∀ falsy text, P (.number falsy text)) (string : ∀ s, P (.string s))
    (array : ∀ items, (∀ item ∈ items, P item) → P (.array items))
    (object : ∀ properties, (∀ p ∈ properties, P p.2) → P (.object properties)) (value : Json) :
    P value := by
  refine @Json.rec P (fun items => ∀ item ∈ items, P item)
    (fun properties => ∀ p ∈ properties, P p.2) (fun p => P p.2)
    null bool number string array object ?_ ?_ ?_ ?_ ?_ value
  · exact fun item h => absurd h List.not_mem_nil
  · intro item items hitem hitems other hother
    rcases List.mem_cons.mp hother with rfl | hmem
    · exact hitem
    · exact hitems other hmem
  · exact fun p h => absurd h List.not_mem_nil
  · intro p properties hp hproperties other hother
    rcases List.mem_cons.mp hother with rfl | hmem
    · exact hp
    · exact hproperties other hmem
  · exact fun key value hvalue => hvalue

/-! ## The strings of a value -/

mutual

/-- The value with {lit}`f` applied to each of its strings. -/
def mapStrings (f : String → String) : Json → Json
  | .string s => .string (f s)
  | .array items => .array (mapItems f items)
  | .object properties => .object (mapProperties f properties)
  | .null => .null
  | .bool b => .bool b
  | .number falsy text => .number falsy text

def mapItems (f : String → String) : List Json → List Json
  | [] => []
  | item :: items => mapStrings f item :: mapItems f items

def mapProperties (f : String → String) : List (String × Json) → List (String × Json)
  | [] => []
  | (key, value) :: properties => (key, mapStrings f value) :: mapProperties f properties

end

theorem mapItems_eq_map (f : String → String) (items : List Json) :
    mapItems f items = items.map (mapStrings f) := by
  induction items with
  | nil => rfl
  | cons item items ih => rw [mapItems, ih, List.map_cons]

theorem mapProperties_eq_map (f : String → String) (properties : List (String × Json)) :
    mapProperties f properties = properties.map fun p => (p.1, p.2.mapStrings f) := by
  induction properties with
  | nil => rfl
  | cons p properties ih => rw [mapProperties, ih, List.map_cons]

theorem mapStrings_array (f : String → String) (items : List Json) :
    (Json.array items).mapStrings f = .array (items.map (mapStrings f)) := by
  rw [mapStrings, mapItems_eq_map]

/-- Replacing strings keeps the keys of an object. -/
theorem mapStrings_object (f : String → String) (properties : List (String × Json)) :
    (Json.object properties).mapStrings f =
      .object (properties.map fun p => (p.1, p.2.mapStrings f)) := by
  rw [mapStrings, mapProperties_eq_map]

/-! ## The keys of a value -/

mutual

/-- An object in the value, at any depth, has the key. -/
def hasKey (name : String) : Json → Bool
  | .array items => itemsHaveKey name items
  | .object properties => propertiesHaveKey name properties
  | .null => false
  | .bool _ => false
  | .number _ _ => false
  | .string _ => false

def itemsHaveKey (name : String) : List Json → Bool
  | [] => false
  | item :: items => hasKey name item || itemsHaveKey name items

def propertiesHaveKey (name : String) : List (String × Json) → Bool
  | [] => false
  | (key, value) :: properties =>
      (key == name || hasKey name value) || propertiesHaveKey name properties

end

theorem hasKey_array (name : String) (items : List Json) :
    (Json.array items).hasKey name = items.any (hasKey name) := by
  rw [hasKey]
  induction items with
  | nil => rfl
  | cons item items ih => rw [itemsHaveKey, ih, List.any_cons]

theorem hasKey_object (name : String) (properties : List (String × Json)) :
    (Json.object properties).hasKey name =
      properties.any fun p => p.1 == name || p.2.hasKey name := by
  rw [hasKey]
  induction properties with
  | nil => rfl
  | cons p properties ih => rw [propertiesHaveKey, ih, List.any_cons]

/-! ## Objects that a program builds -/

/-- {lit}`result[key] = value`, for a key that {lit}`result` does not have: the name
{lit}`__proto__` sets the prototype and makes no property. -/
def setProperty (result : List (String × Json)) (key : String) (value : Json) :
    List (String × Json) :=
  if key = "__proto__" then result else result ++ [(key, value)]

/-- A loop that assigns the entries of an object leaves out {lit}`__proto__`. -/
theorem foldl_setProperty (f : String × Json → Json) (entries result : List (String × Json)) :
    entries.foldl (fun result p => setProperty result p.1 (f p)) result =
      result ++ (entries.filter (·.1 != "__proto__")).map fun p => (p.1, f p) := by
  induction entries generalizing result with
  | nil => rw [List.foldl_nil, List.filter_nil, List.map_nil, List.append_nil]
  | cons p entries ih =>
      rw [List.foldl_cons, ih]
      by_cases hkey : p.1 = "__proto__"
      · rw [setProperty, if_pos hkey, List.filter_cons_of_neg (by simp [hkey])]
      · rw [setProperty, if_neg hkey, List.filter_cons_of_pos (by simp [hkey]), List.map_cons,
          List.append_assoc, List.singleton_append]

/-- Without a lost assignment every entry is there. -/
theorem filter_proto_eq_self {entries : List (String × Json)}
    (h : ∀ p ∈ entries, p.1 ≠ "__proto__") : entries.filter (·.1 != "__proto__") = entries :=
  List.filter_eq_self.mpr fun p hp => bne_iff_ne.mpr (h p hp)

/-- A lost assignment makes an object shorter. -/
theorem ne_proto_of_length_eq {entries : List (String × Json)}
    (h : (entries.filter (·.1 != "__proto__")).length = entries.length) :
    ∀ p ∈ entries, p.1 ≠ "__proto__" :=
  fun p hp => bne_iff_ne.mp (List.length_filter_eq_length_iff.mp h p hp)

end Json

end Foundation
end Eleva
