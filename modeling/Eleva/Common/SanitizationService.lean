import Eleva.Foundation.JsonTrees

/-!
# Common - Sanitising input

The service walks a value and puts the filter of the {lit}`xss` library on every string.  It
builds each object anew by assigning its entries, and an assignment to {lit}`__proto__` makes no
property.

Main results:

- Theorem {lit}`walk_object`: an object comes out with every key but that one.
- Theorem {lit}`sanitize_iff`: the sanitised value is the value with its strings filtered exactly
  when no object in it has the key {lit}`__proto__`.
-/

namespace Eleva

open Foundation

namespace SanitizationService

/-- Filter a text that is not empty. -/
def sanitizeString (xss : String → String) (value : String) : String :=
  if value = "" then value else xss value

mutual

def walk (xss : String → String) : Json → Json
  | .string s => .string (sanitizeString xss s)
  | .array items => .array (walkItems xss items)
  | .object properties => .object (walkEntries xss [] properties)
  | .null => .null
  | .bool b => .bool b
  | .number falsy text => .number falsy text

def walkItems (xss : String → String) : List Json → List Json
  | [] => []
  | item :: items => walk xss item :: walkItems xss items

/-- The loop over the entries of an object. -/
def walkEntries (xss : String → String) (result : List (String × Json)) :
    List (String × Json) → List (String × Json)
  | [] => result
  | (key, val) :: entries => walkEntries xss (Json.setProperty result key (walk xss val)) entries

end

def sanitize (xss : String → String) (input : Json) : Json :=
  walk xss input

section Walk

variable {xss : String → String}

theorem walk_array (items : List Json) :
    walk xss (.array items) = .array (items.map (walk xss)) := by
  rw [walk]
  refine congrArg Json.array ?_
  induction items with
  | nil => rfl
  | cons item items ih => rw [walkItems, ih, List.map_cons]

theorem walkEntries_eq_foldl (entries result : List (String × Json)) :
    walkEntries xss result entries =
      entries.foldl (fun result p => Json.setProperty result p.1 (walk xss p.2)) result := by
  induction entries generalizing result with
  | nil => rfl
  | cons p entries ih => rw [walkEntries, ih, List.foldl_cons]

/-- An object comes out with every key but {lit}`__proto__`. -/
theorem walk_object (properties : List (String × Json)) :
    walk xss (.object properties) =
      .object ((properties.filter (·.1 != "__proto__")).map fun p => (p.1, walk xss p.2)) := by
  rw [walk, walkEntries_eq_foldl, Json.foldl_setProperty, List.nil_append]

/-- Without the key {lit}`__proto__` the walk filters the strings and nothing else. -/
theorem walk_eq_mapStrings (value : Json) (hproto : value.hasKey "__proto__" = false) :
    walk xss value = value.mapStrings (sanitizeString xss) := by
  induction value using Json.tree_induction with
  | null | bool b | number falsy text | string s => rfl
  | array items ih =>
      rw [Json.hasKey_array, List.any_eq_false] at hproto
      rw [walk_array, Json.mapStrings_array]
      exact congrArg Json.array (List.map_congr_left fun item hitem =>
        ih item hitem (Bool.eq_false_iff.mpr (hproto item hitem)))
  | object properties ih =>
      rw [Json.hasKey_object, List.any_eq_false] at hproto
      have hkeys : ∀ p ∈ properties, p.1 ≠ "__proto__" ∧ p.2.hasKey "__proto__" = false :=
        fun p hp => by simpa using hproto p hp
      rw [walk_object, Json.filter_proto_eq_self fun p hp => (hkeys p hp).1,
        Json.mapStrings_object]
      exact congrArg Json.object (List.map_congr_left fun p hp =>
        Prod.ext rfl (ih p hp (hkeys p hp).2))

/-- The filtered value has the shape of the value only without the key {lit}`__proto__`. -/
theorem hasKey_of_walk_eq (value : Json)
    (h : walk xss value = value.mapStrings (sanitizeString xss)) :
    value.hasKey "__proto__" = false := by
  induction value using Json.tree_induction with
  | null | bool b | number falsy text | string s => rfl
  | array items ih =>
      rw [walk_array, Json.mapStrings_array] at h
      have hitems := List.map_inj_left.mp (Json.array.inj h)
      rw [Json.hasKey_array, List.any_eq_false]
      exact fun item hitem => Bool.eq_false_iff.mp (ih item hitem (hitems item hitem))
  | object properties ih =>
      rw [walk_object, Json.mapStrings_object] at h
      have hlists := Json.object.inj h
      have hlength : (properties.filter (·.1 != "__proto__")).length = properties.length := by
        simpa using congrArg List.length hlists
      have hkeys := Json.ne_proto_of_length_eq hlength
      rw [Json.filter_proto_eq_self hkeys] at hlists
      have hvalues := List.map_inj_left.mp hlists
      rw [Json.hasKey_object, List.any_eq_false]
      intro p hp
      have hvalue := ih p hp (Prod.ext_iff.mp (hvalues p hp)).2
      simpa [hvalue] using hkeys p hp

theorem sanitizeString_idempotent (hxss : ∀ s, xss (xss s) = xss s) (s : String) :
    sanitizeString xss (sanitizeString xss s) = sanitizeString xss s := by
  unfold sanitizeString
  by_cases hs : s = ""
  · rw [if_pos hs, if_pos hs]
  · rw [if_neg hs]
    by_cases hempty : xss s = ""
    · rw [if_pos hempty]
    · rw [if_neg hempty, hxss]

/-- The walk is idempotent when the filter is. -/
theorem walk_idempotent (hxss : ∀ s, xss (xss s) = xss s) (value : Json) :
    walk xss (walk xss value) = walk xss value := by
  induction value using Json.tree_induction with
  | null | bool b | number falsy text => rfl
  | string s => exact congrArg Json.string (sanitizeString_idempotent hxss s)
  | array items ih =>
      rw [walk_array, walk_array, List.map_map]
      exact congrArg Json.array (List.map_congr_left ih)
  | object properties ih =>
      rw [walk_object, walk_object]
      refine congrArg Json.object ?_
      have hkept :
          ((properties.filter (·.1 != "__proto__")).map fun p => (p.1, walk xss p.2)).filter
            (·.1 != "__proto__") =
              (properties.filter (·.1 != "__proto__")).map fun p => (p.1, walk xss p.2) := by
        refine List.filter_eq_self.mpr fun q hq => ?_
        rcases List.mem_map.mp hq with ⟨p, hp, rfl⟩
        exact (List.mem_filter.mp hp).2
      rw [hkept, List.map_map]
      exact List.map_congr_left fun p hp => Prod.ext rfl (ih p (List.mem_filter.mp hp).1)

end Walk

/-- The sanitised value has the shape of the input and its strings filtered, and is not changed by
sanitising it again when the filter is idempotent, exactly when no object in the input has the
key {lit}`__proto__`. -/
theorem sanitize_iff (xss : String → String) (input : Json) :
    (sanitize xss input = input.mapStrings (sanitizeString xss) ∧
        ((∀ s, xss (xss s) = xss s) → sanitize xss (sanitize xss input) = sanitize xss input)) ↔
      input.hasKey "__proto__" = false :=
  ⟨fun h => hasKey_of_walk_eq input h.1,
    fun hproto => ⟨walk_eq_mapStrings input hproto, fun hxss => walk_idempotent hxss input⟩⟩

/-- A body whose {lit}`__proto__` is a key of its own. -/
def hostileBody : Json :=
  .object [("name", .string "table 4"), ("__proto__", .object [("isAdmin", .bool true)])]

/-- The key is lost. -/
theorem hostileBody_loses_key :
    sanitize (fun s => s) hostileBody ≠
      hostileBody.mapStrings (sanitizeString fun s => s) := by
  intro h
  have hkeys := hasKey_of_walk_eq hostileBody h
  revert hkeys
  decide

end SanitizationService
end Eleva
