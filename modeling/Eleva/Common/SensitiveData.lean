import Eleva.Foundation.JsonTrees

/-!
# Common - Masking log entries

{lit}`sensitiveFieldsMask` copies an object for the log and masks what stands under sensitive
keys.  It goes into objects, and into the items of arrays; an item that is an array itself is
taken for an object, and an assignment to {lit}`__proto__` makes no property.

Main results:

- Definition {lit}`isSensitiveKey`: the patterns for keys.
- Theorem {lit}`maskString_onlyEnds`: what a masked text shows.
- Theorem {lit}`sensitiveFieldsMask_iff`: the copy has the shape of the object, masks what it must
  and keeps the rest exactly when no array holds an array and no object the key
  {lit}`__proto__`.
-/

namespace Eleva

open Foundation

namespace SensitiveData

/-! ## Sensitive keys -/

/-- The forms of the patterns; all of them ignore case. -/
inductive KeyPattern
  /-- {lit}`/text/`. -/
  | text (text : String)
  /-- {lit}`/first[_-]?second/`. -/
  | joined (first second : String)
  /-- {lit}`/\btext\b/`. -/
  | word (text : String)
deriving DecidableEq, Repr

def SENSITIVE_PATTERNS : List KeyPattern :=
  [.text "password", .text "passwd", .text "secret", .text "token", .joined "api" "key",
    .text "authorization", .text "cookie", .text "session", .joined "credit" "card", .text "ssn",
    .word "pin", .word "otp", .joined "access" "token", .joined "refresh" "token",
    .joined "private" "key", .joined "secret" "key", .text "credential", .text "bearer"]

/-- {lit}`\w`. -/
def isWordChar (c : Char) : Bool :=
  c.isAlphanum || c == '_'

namespace KeyPattern

/-- The pattern matches at a place of a text in lower case. -/
def matchesAt (before : Option Char) (rest : List Char) : KeyPattern → Bool
  | text t => t.toList.isPrefixOf rest
  | joined first second =>
      match rest.dropPrefix? first.toList with
      | none => false
      | some after =>
          second.toList.isPrefixOf after ||
            (after.head?.any fun c => c == '_' || c == '-') &&
              second.toList.isPrefixOf after.tail
  | word t =>
      match rest.dropPrefix? t.toList with
      | none => false
      | some after => !before.any isWordChar && !after.head?.any isWordChar

/-- The pattern matches somewhere in the rest of a text. -/
def matchesFrom (pattern : KeyPattern) (before : Option Char) : List Char → Bool
  | [] => pattern.matchesAt before []
  | c :: rest => pattern.matchesAt before (c :: rest) || pattern.matchesFrom (some c) rest

/-- {lit}`pattern.test(key)`. -/
def test (pattern : KeyPattern) (key : String) : Bool :=
  pattern.matchesFrom none (key.toList.map Char.toLower)

end KeyPattern

def isSensitiveKey (key : String) : Bool :=
  SENSITIVE_PATTERNS.any fun pattern => pattern.test key

example : ["newPassword", "API-Key", "x_pin", "user pin", "spin", "name"].map isSensitiveKey =
    [true, true, false, true, false, false] := by
  decide +kernel

/-! ## Masks -/

def MASK_VALUE : String :=
  "***MASKED***"

/-- The characters whose code units all stand behind the first {lit}`n`. -/
def unitsFrom : ℕ → List Char → List Char
  | 0, cs => cs
  | _ + 1, [] => []
  | n + 1, c :: cs => unitsFrom (n + 1 - (codeUnits c).length) cs

/-- {lit}`s.substring(n)`. -/
def substringFrom (n : ℕ) (s : String) : String :=
  String.ofList (unitsFrom n s.toList)

def stars (n : ℕ) : String :=
  String.ofList (List.replicate n '*')

/-- {lit}`maskValue` of a text. -/
def maskString (value : String) : String :=
  if utf16Length value = 0 then value
  else if utf16Length value ≤ 4 then "****"
  else
    substringTo 2 value ++ stars (min (utf16Length value - 4) 8) ++
      substringFrom (utf16Length value - 2) value

def maskValue : Json → Json
  | .string s => .string (maskString s)
  | value => value

/-- What is written under a sensitive key. -/
def maskOf (value : Json) : Json :=
  match value with
  | .string _ => maskValue value
  | _ => .string MASK_VALUE

section Masking

/- The additional patterns of a call, by the keys that they match. -/
variable (additional : String → Bool)

def isSensitive (key : String) : Bool :=
  isSensitiveKey key || additional key

mutual

/-- The loop over the entries of an object. -/
def maskEntries (result : List (String × Json)) : List (String × Json) → List (String × Json)
  | [] => result
  | (key, value) :: entries =>
      maskEntries
        (Json.setProperty result key
          (if isSensitive additional key then maskOf value else maskInside value)) entries

/-- The value under a key that is not sensitive. -/
def maskInside : Json → Json
  | .object properties => .object (maskEntries [] properties)
  | .array items => .array (maskItems items)
  | .null => .null
  | .bool b => .bool b
  | .number falsy text => .number falsy text
  | .string s => .string s

def maskItems : List Json → List Json
  | [] => []
  | item :: items => maskItem item :: maskItems items

/-- An item of an array: what is an object to {lit}`typeof` is masked as one. -/
def maskItem : Json → Json
  | .object properties => .object (maskEntries [] properties)
  | .array items => .object (maskIndexed 0 [] items)
  | .null => .null
  | .bool b => .bool b
  | .number falsy text => .number falsy text
  | .string s => .string s

/-- The loop over the entries of an array, from the index {lit}`i` on. -/
def maskIndexed (i : ℕ) (result : List (String × Json)) : List Json → List (String × Json)
  | [] => result
  | item :: items =>
      maskIndexed (i + 1)
        (Json.setProperty result (toString i)
          (if isSensitive additional (toString i) then maskOf item else maskInside item)) items

end

def sensitiveFieldsMask (obj : List (String × Json)) : List (String × Json) :=
  maskEntries additional [] obj

end Masking

/-! ## What a mask shows -/

/-- A text of asterisks between at most the first two and the last two characters of a text that
is longer than four. -/
def OnlyEnds (s m : String) : Prop :=
  ∃ n, m = (if utf16Length s ≤ 4 then stars n
    else substringTo 2 s ++ stars n ++ substringFrom (utf16Length s - 2) s)

theorem utf16Length_eq_zero {s : String} (h : utf16Length s = 0) : s = "" := by
  have hunits : utf16 s = utf16 "" := List.length_eq_zero_iff.mp h
  exact utf16_injective hunits

theorem maskString_onlyEnds (s : String) : OnlyEnds s (maskString s) := by
  unfold OnlyEnds maskString
  by_cases hzero : utf16Length s = 0
  · rw [utf16Length_eq_zero hzero]
    exact ⟨0, by decide⟩
  · by_cases hshort : utf16Length s ≤ 4
    · exact ⟨4, by rw [if_neg hzero, if_pos hshort, if_pos hshort]; decide⟩
    · exact ⟨_, by rw [if_neg hzero, if_neg hshort, if_neg hshort]⟩

/-- A value in the place of another one that shows nothing of it but the ends of a text. -/
def IsMask (value mask : Json) : Prop :=
  match value with
  | .string s => ∃ m, mask = .string m ∧ OnlyEnds s m
  | _ => mask = .string MASK_VALUE

theorem maskOf_isMask (value : Json) : IsMask value (maskOf value) := by
  cases value with
  | string s => exact ⟨maskString s, rfl, maskString_onlyEnds s⟩
  | null | bool b | number falsy text | array items | object properties => exact rfl

section Shape

variable (additional : String → Bool)

mutual

/-- The second value has the shape of the first one: what stands under a sensitive key is masked,
everything else is the same. -/
def Masked : Json → Json → Prop
  | .array items, out => ∃ outs, out = .array outs ∧ ItemsMasked items outs
  | .object properties, out => ∃ outs, out = .object outs ∧ PropertiesMasked properties outs
  | .null, out => out = .null
  | .bool b, out => out = .bool b
  | .number falsy text, out => out = .number falsy text
  | .string s, out => out = .string s

def ItemsMasked : List Json → List Json → Prop
  | [], outs => outs = []
  | item :: items, outs => ∃ o rest, outs = o :: rest ∧ Masked item o ∧ ItemsMasked items rest

def PropertiesMasked : List (String × Json) → List (String × Json) → Prop
  | [], outs => outs = []
  | (key, value) :: properties, outs =>
      ∃ o rest, outs = (key, o) :: rest ∧
        (if isSensitive additional key then IsMask value o else Masked value o) ∧
        PropertiesMasked properties rest

end

def isArray : Json → Bool
  | .array _ => true
  | _ => false

mutual

/-- Outside of what is masked, no array holds an array and no object has the key
{lit}`__proto__`. -/
def maskable : Json → Bool
  | .array items => itemsMaskable items
  | .object properties => propertiesMaskable properties
  | .null => true
  | .bool _ => true
  | .number _ _ => true
  | .string _ => true

def itemsMaskable : List Json → Bool
  | [] => true
  | item :: items => (!isArray item && maskable item) && itemsMaskable items

def propertiesMaskable : List (String × Json) → Bool
  | [] => true
  | (key, value) :: properties =>
      (key != "__proto__" && (isSensitive additional key || maskable value)) &&
        propertiesMaskable properties

end

/-- What is written under a key. -/
def maskEntry (key : String) (value : Json) : Json :=
  if isSensitive additional key then maskOf value else maskInside additional value

variable {additional}

theorem maskEntries_eq_foldl (entries result : List (String × Json)) :
    maskEntries additional result entries =
      entries.foldl
        (fun result p => Json.setProperty result p.1 (maskEntry additional p.1 p.2)) result := by
  induction entries generalizing result with
  | nil => rfl
  | cons p entries ih =>
      rw [maskEntries, ih]
      rfl

/-- An object is copied with every key but {lit}`__proto__`. -/
theorem maskEntries_eq (entries : List (String × Json)) :
    maskEntries additional [] entries =
      (entries.filter (·.1 != "__proto__")).map fun p =>
        (p.1, maskEntry additional p.1 p.2) := by
  rw [maskEntries_eq_foldl, Json.foldl_setProperty, List.nil_append]

theorem maskInside_array (items : List Json) :
    maskInside additional (.array items) = .array (items.map (maskItem additional)) := by
  rw [maskInside]
  refine congrArg Json.array ?_
  induction items with
  | nil => rfl
  | cons item items ih => rw [maskItems, ih, List.map_cons]

theorem masked_array (items : List Json) (f : Json → Json) :
    Masked additional (.array items) (.array (items.map f)) ↔
      ∀ item ∈ items, Masked additional item (f item) := by
  have hitems : ItemsMasked additional items (items.map f) ↔
      ∀ item ∈ items, Masked additional item (f item) := by
    induction items with
    | nil => simp [ItemsMasked]
    | cons item items ih => simp [ItemsMasked, ih]
  rw [← hitems]
  simp [Masked]

/-- The copy of an object has its keys. -/
theorem propertiesMasked_keys {properties outs : List (String × Json)}
    (h : PropertiesMasked additional properties outs) :
    outs.map Prod.fst = properties.map Prod.fst := by
  induction properties generalizing outs with
  | nil =>
      rw [PropertiesMasked] at h
      rw [h]
  | cons p properties ih =>
      rcases h with ⟨o, rest, rfl, -, hrest⟩
      rw [List.map_cons, List.map_cons, ih hrest]

theorem propertiesMasked_map (properties : List (String × Json)) (f : String × Json → Json) :
    PropertiesMasked additional properties (properties.map fun p => (p.1, f p)) ↔
      ∀ p ∈ properties,
        if isSensitive additional p.1 then IsMask p.2 (f p) else Masked additional p.2 (f p) := by
  induction properties with
  | nil => simp [PropertiesMasked]
  | cons p properties ih =>
      rcases p with ⟨key, value⟩
      rw [PropertiesMasked, List.forall_mem_cons, ← ih]
      simp

theorem maskable_array (items : List Json) :
    maskable additional (.array items) =
      items.all fun item => !isArray item && maskable additional item := by
  rw [maskable]
  induction items with
  | nil => rfl
  | cons item items ih => rw [itemsMaskable, ih, List.all_cons]

theorem maskable_object (properties : List (String × Json)) :
    maskable additional (.object properties) =
      properties.all fun p =>
        p.1 != "__proto__" && (isSensitive additional p.1 || maskable additional p.2) := by
  rw [maskable]
  induction properties with
  | nil => rfl
  | cons p properties ih => rw [propertiesMaskable, ih, List.all_cons]

/-- An item is copied in its shape unless it is an array. -/
theorem masked_maskItem (item : Json)
    (h : Masked additional item (maskInside additional item) ↔
      maskable additional item = true) :
    Masked additional item (maskItem additional item) ↔
      (!isArray item && maskable additional item) = true := by
  cases item with
  | array items =>
      refine iff_of_false ?_ (by simp [isArray])
      simp [Masked, maskItem]
  | object properties =>
      rw [maskItem, ← maskInside, h]
      simp [isArray]
  | null | bool b | number falsy text | string s => simpa [isArray, maskItem, maskInside] using h

/-- A value under a key that is not sensitive is copied in its shape exactly when it can be. -/
theorem masked_maskInside (value : Json) :
    Masked additional value (maskInside additional value) ↔
      maskable additional value = true := by
  induction value using Json.tree_induction with
  | null | bool b | number falsy text | string s => simp [Masked, maskInside, maskable]
  | array items ih =>
      rw [maskInside_array, masked_array, maskable_array, List.all_eq_true]
      exact forall₂_congr fun item hitem => masked_maskItem item (ih item hitem)
  | object properties ih =>
      have hentry : ∀ p ∈ properties,
          ((if isSensitive additional p.1 then IsMask p.2 (maskEntry additional p.1 p.2)
              else Masked additional p.2 (maskEntry additional p.1 p.2)) ↔
            (isSensitive additional p.1 || maskable additional p.2) = true) := by
        intro p hp
        unfold maskEntry
        cases isSensitive additional p.1 with
        | true => simpa using maskOf_isMask p.2
        | false => simpa using ih p hp
      rw [maskInside, maskEntries_eq, maskable_object, List.all_eq_true, Masked]
      constructor
      · rintro ⟨outs, houts, hmasked⟩
        cases houts
        have hlength := congrArg List.length (propertiesMasked_keys hmasked)
        simp only [List.length_map] at hlength
        have hkeys := Json.ne_proto_of_length_eq hlength
        rw [Json.filter_proto_eq_self hkeys, propertiesMasked_map] at hmasked
        intro p hp
        rw [Bool.and_eq_true]
        exact ⟨bne_iff_ne.mpr (hkeys p hp), (hentry p hp).mp (hmasked p hp)⟩
      · intro hall
        have hkeys : ∀ p ∈ properties, p.1 ≠ "__proto__" :=
          fun p hp => bne_iff_ne.mp (Bool.and_eq_true_iff.mp (hall p hp)).1
        refine ⟨_, rfl, ?_⟩
        rw [Json.filter_proto_eq_self hkeys, propertiesMasked_map]
        exact fun p hp => (hentry p hp).mpr (Bool.and_eq_true_iff.mp (hall p hp)).2

/-- The copy for the log has the shape of the object, shows under sensitive keys no more than the
ends of a text, and is the same everywhere else, exactly when no array in the object holds an
array and no object has the key {lit}`__proto__`, apart from what is masked. -/
theorem sensitiveFieldsMask_iff (additional : String → Bool) (obj : List (String × Json)) :
    Masked additional (.object obj) (.object (sensitiveFieldsMask additional obj)) ↔
      maskable additional (.object obj) = true :=
  masked_maskInside (.object obj)

end Shape

/-! ## A list of lists -/

/-- Coordinates of a delivery zone. -/
def zonePayload : List (String × Json) :=
  [("zone", .array [.array [.number false "1", .number false "2"]])]

/-- In the log the inner list is an object with the keys 0 and 1. -/
theorem zonePayload_reshaped :
    ¬ Masked (fun _ => false) (.object zonePayload)
      (.object (sensitiveFieldsMask (fun _ => false) zonePayload)) := by
  intro h
  have hmaskable := (masked_maskInside (.object zonePayload)).mp h
  revert hmaskable
  decide +kernel

end SensitiveData
end Eleva
