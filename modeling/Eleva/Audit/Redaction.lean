import Eleva.Audit.AuditInterceptor
import Eleva.Foundation.JsonTokens

/-!
# Audit - Secrets in the log

{lit}`sanitizeValues` replaces what stands under five keys of the body, and looks at the keys of
the body itself only: what is inside an object of the body, or in a body that is an array, is
written as it came.

Main results:

- Theorem {lit}`mem_sanitized`: the strings of the sanitised body, by where they stand in the body.
- Theorem {lit}`rowHolds_iff`: a row holds the strings whose text is not cut off.
- Theorem {lit}`row_without_secrets_iff`: the row of a request holds no secret exactly when no
  secret below the top level of the body reaches it.
-/

namespace Eleva
namespace Audit

open Foundation

/-! ## The strings of a body -/

mutual

/-- The strings of a value, each with whether it stands under a sensitive key. -/
def leaves (under : Bool) : Json → List (Bool × String)
  | .string s => [(under, s)]
  | .array items => itemLeaves under items
  | .object properties => propertyLeaves under properties
  | .null => []
  | .bool _ => []
  | .number _ _ => []

def itemLeaves (under : Bool) : List Json → List (Bool × String)
  | [] => []
  | item :: items => leaves under item ++ itemLeaves under items

def propertyLeaves (under : Bool) : List (String × Json) → List (Bool × String)
  | [] => []
  | (key, value) :: properties =>
      leaves (under || sensitive.contains key) value ++ propertyLeaves under properties

end

namespace Body

/-- A string that the body holds under a sensitive key. -/
def Secret (body : Body) (s : String) : Prop :=
  (true, s) ∈ propertyLeaves false body.spread

/-- A string that the body holds where no sensitive key is above it. -/
def Elsewhere (body : Body) (s : String) : Prop :=
  (false, s) ∈ propertyLeaves false body.spread

/-- A string under a sensitive key inside a value that is not redacted. -/
def NestedSecret (body : Body) (s : String) : Prop :=
  ∃ p ∈ body.spread, p.1 ∉ sensitive ∧ (true, s) ∈ leaves false p.2

/-- The body with its own sensitive properties redacted. -/
def sanitized (body : Body) : Json :=
  .object (body.spread.map redacted)

/-- The text of the string, up to its closing quote, is within the part of the sanitised body that
is kept. -/
def Reached (body : Body) (s : String) : Prop :=
  ∃ before after, body.sanitized.tokens = before ++ .string s :: after ∧
    ((tokenChars before ++ Json.opened s).flatMap codeUnits).length ≤ 5000

end Body

/-- The values of a row hold the string: as one of the strings in them or, where the text of the
body is cut, in whole in the preview, with or without its closing quote. -/
def RowHolds (body : Body) (row : AuditLog) (s : String) : Prop :=
  ∃ newValues, row.newValues = some newValues ∧
    if utf16Length body.sanitized.stringify > 5000 then
      ∃ preview before after, newValues.property "preview" = some (.string preview) ∧
        body.sanitized.tokens = before ++ .string s :: after ∧
        tokenChars before ++ Json.opened s <+: preview.toList
    else .string s ∈ newValues.tokens

/-! ## Where the strings of a row come from -/

section Leaves

variable {s : String}

theorem mem_leaves_array {under flag : Bool} (items : List Json) :
    (flag, s) ∈ leaves under (.array items) ↔ ∃ item ∈ items, (flag, s) ∈ leaves under item := by
  rw [leaves]
  induction items with
  | nil => simp [itemLeaves]
  | cons item items ih => rw [itemLeaves, List.mem_append, ih]; simp

theorem mem_propertyLeaves {under flag : Bool} (properties : List (String × Json)) :
    (flag, s) ∈ propertyLeaves under properties ↔
      ∃ p ∈ properties, (flag, s) ∈ leaves (under || sensitive.contains p.1) p.2 := by
  induction properties with
  | nil => simp [propertyLeaves]
  | cons p properties ih => rw [propertyLeaves, List.mem_append, ih]; simp

/-- The strings of a value are its leaves, whatever is above it. -/
theorem mem_tokens_iff (value : Json) (under : Bool) :
    .string s ∈ value.tokens ↔
      (true, s) ∈ leaves under value ∨ (false, s) ∈ leaves under value := by
  induction value using Json.tree_induction generalizing under with
  | null | bool b | number falsy text => simp [Json.tokens, leaves]
  | string t => cases under <;> simp [Json.tokens, leaves]
  | array items ih =>
      rw [Json.mem_tokens_array, mem_leaves_array, mem_leaves_array]
      constructor
      · rintro ⟨item, hitem, h⟩
        exact ((ih item hitem under).mp h).imp (⟨item, hitem, ·⟩) (⟨item, hitem, ·⟩)
      · rintro (⟨item, hitem, h⟩ | ⟨item, hitem, h⟩)
        · exact ⟨item, hitem, (ih item hitem under).mpr (Or.inl h)⟩
        · exact ⟨item, hitem, (ih item hitem under).mpr (Or.inr h)⟩
  | object properties ih =>
      rw [Json.mem_tokens_object, leaves, mem_propertyLeaves, mem_propertyLeaves]
      constructor
      · rintro ⟨p, hp, h⟩
        exact ((ih p hp _).mp h).imp (⟨p, hp, ·⟩) (⟨p, hp, ·⟩)
      · rintro (⟨p, hp, h⟩ | ⟨p, hp, h⟩)
        · exact ⟨p, hp, (ih p hp _).mpr (Or.inl h)⟩
        · exact ⟨p, hp, (ih p hp _).mpr (Or.inr h)⟩

/-- Below a sensitive key everything is under it. -/
theorem not_mem_leaves_true (value : Json) : (false, s) ∉ leaves true value := by
  induction value using Json.tree_induction with
  | null | bool b | number falsy text | string t => simp [leaves]
  | array items ih =>
      rw [mem_leaves_array]
      rintro ⟨item, hitem, h⟩
      exact ih item hitem h
  | object properties ih =>
      rw [leaves, mem_propertyLeaves]
      rintro ⟨p, hp, h⟩
      exact ih p hp h

theorem contains_sensitive {key : String} (h : key ∉ sensitive) :
    (false || sensitive.contains key) = false := by
  simpa using h

theorem nestedSecret_secret {body : Body} (h : body.NestedSecret s) : body.Secret s := by
  rcases h with ⟨p, hp, hkey, hleaf⟩
  exact (mem_propertyLeaves _).mpr ⟨p, hp, (contains_sensitive hkey).symm ▸ hleaf⟩

/-- What stands elsewhere is inside values that are not redacted. -/
theorem elsewhere_iff {body : Body} :
    body.Elsewhere s ↔ ∃ p ∈ body.spread, p.1 ∉ sensitive ∧ (false, s) ∈ leaves false p.2 := by
  unfold Body.Elsewhere
  rw [mem_propertyLeaves]
  constructor
  · rintro ⟨p, hp, h⟩
    by_cases hkey : p.1 ∈ sensitive
    · have hunder : (false || sensitive.contains p.1) = true := by simpa using hkey
      rw [hunder] at h
      exact absurd h (not_mem_leaves_true p.2)
    · rw [contains_sensitive hkey] at h
      exact ⟨p, hp, hkey, h⟩
  · rintro ⟨p, hp, hkey, h⟩
    exact ⟨p, hp, (contains_sensitive hkey).symm ▸ h⟩

/-- The strings of the sanitised body: what replaces a redacted value, the secrets inside values
that are not redacted, and what stands elsewhere. -/
theorem mem_sanitized (body : Body) :
    .string s ∈ body.sanitized.tokens ↔
      (s = "[REDACTED]" ∧ ∃ p ∈ body.spread, p.1 ∈ sensitive) ∨ body.NestedSecret s ∨
        body.Elsewhere s := by
  rw [elsewhere_iff, Body.sanitized, Json.mem_tokens_object]
  constructor
  · rintro ⟨q, hq, h⟩
    rcases List.mem_map.mp hq with ⟨p, hp, rfl⟩
    by_cases hkey : p.1 ∈ sensitive
    · rw [redacted, if_pos hkey] at h
      have hs : s = "[REDACTED]" := by simpa [Json.tokens] using h
      exact Or.inl ⟨hs, p, hp, hkey⟩
    · rw [redacted, if_neg hkey, mem_tokens_iff p.2 false] at h
      exact Or.inr (h.imp (⟨p, hp, hkey, ·⟩) (⟨p, hp, hkey, ·⟩))
  · rintro (⟨rfl, p, hp, hkey⟩ | ⟨p, hp, hkey, h⟩ | ⟨p, hp, hkey, h⟩)
    · refine ⟨redacted p, List.mem_map_of_mem hp, ?_⟩
      rw [redacted, if_pos hkey]
      exact List.mem_singleton_self _
    · refine ⟨redacted p, List.mem_map_of_mem hp, ?_⟩
      rw [redacted, if_neg hkey, mem_tokens_iff p.2 false]
      exact Or.inl h
    · refine ⟨redacted p, List.mem_map_of_mem hp, ?_⟩
      rw [redacted, if_neg hkey, mem_tokens_iff p.2 false]
      exact Or.inr h

end Leaves

/-! ## What a row holds -/

section Row

variable {body : Body} {s : String}

/-- The length of the text of a value. -/
theorem utf16Length_stringify (value : Json) :
    utf16Length value.stringify = ((tokenChars value.tokens).flatMap codeUnits).length := by
  rw [← Json.toList_stringify]
  rfl

theorem reached_mem (h : body.Reached s) : .string s ∈ body.sanitized.tokens := by
  rcases h with ⟨before, after, htokens, -⟩
  rw [htokens]
  exact List.mem_append_right _ List.mem_cons_self

/-- The text of a value begins with that of its tokens, up to the closing quote of a string. -/
theorem opened_begins {value : Json} {before after : List JsonToken}
    (h : value.tokens = before ++ .string s :: after) :
    tokenChars before ++ Json.opened s <+: value.stringify.toList := by
  refine ⟨'"' :: tokenChars after, ?_⟩
  rw [Json.toList_stringify, h, tokenChars_append, tokenChars_cons, JsonToken.chars_string]
  simp

/-- Of a body that is kept whole, every string is reached. -/
theorem reached_of_short (hshort : ¬utf16Length body.sanitized.stringify > 5000)
    (h : .string s ∈ body.sanitized.tokens) : body.Reached s := by
  rcases List.append_of_mem h with ⟨before, after, htokens⟩
  have hlength := (List.IsPrefix.flatMap (opened_begins htokens) codeUnits).length_le
  rw [Json.toList_stringify, ← utf16Length_stringify] at hlength
  exact ⟨before, after, htokens, hlength.trans (Nat.le_of_not_lt hshort)⟩

/-- A row holds the strings whose text is not cut off. -/
theorem rowHolds_iff {row : AuditLog} (h : row.newValues = sanitizeValues (some body)) :
    RowHolds body row s ↔ body.Reached s := by
  unfold RowHolds
  by_cases hlong : utf16Length body.sanitized.stringify > 5000
  · have hvalues : row.newValues = some (.object [("_truncated", .bool true),
        ("preview", .string (substringTo 5000 body.sanitized.stringify))]) := by
      rw [h]
      exact congrArg some (if_pos hlong)
    have hcut : ∀ before after : List JsonToken,
        body.sanitized.tokens = before ++ .string s :: after →
        (tokenChars before ++ Json.opened s <+:
            (substringTo 5000 body.sanitized.stringify).toList ↔
          ((tokenChars before ++ Json.opened s).flatMap codeUnits).length ≤ 5000) := by
      intro before after htokens
      rw [substringTo, String.toList_ofList]
      exact prefix_unitsPrefix_iff (opened_begins htokens) 5000
    rw [hvalues]
    simp only [hlong, if_true, Option.some.injEq, exists_eq_left']
    constructor
    · rintro ⟨preview, before, after, hpreview, htokens, hshown⟩
      cases hpreview
      exact ⟨before, after, htokens, (hcut before after htokens).mp hshown⟩
    · rintro ⟨before, after, htokens, hfits⟩
      exact ⟨_, before, after, rfl, htokens, (hcut before after htokens).mpr hfits⟩
  · have hvalues : row.newValues = some body.sanitized := by
      rw [h]
      exact congrArg some (if_neg hlong)
    rw [hvalues]
    simp only [hlong, if_false, Option.some.injEq, exists_eq_left']
    exact ⟨reached_of_short hlong, reached_mem⟩

theorem auditLogRow_newValues {env : AuditEnv} {entry : AuditLogEntry} {row : AuditLog}
    (h : auditLogRow env entry = some row) : row.newValues = entry.newValues := by
  unfold auditLogRow at h
  split at h
  · cases h
  · split at h
    · cases h
      rfl
    · cases h

/-- The row of a request has the sanitised body. -/
theorem intercepted_values {env : AuditEnv} {request : AuditedRequest} {next : Handler}
    {rows : List AuditLog} {row : AuditLog}
    (hrow : (intercept env request next rows).2 = (next rows).2 ++ [row]) :
    row.newValues = sanitizeValues request.body := by
  have hentry : ∀ outcome : Except AuditError (Option Json),
      (entryOf request outcome).newValues = sanitizeValues request.body := by
    intro outcome
    cases outcome <;> rfl
  have hnext : (next rows).2 ≠ (next rows).2 ++ [row] := by simp
  by_cases hmethod : request.method ∈ mutatingMethods
  · cases hurl : skipped request.fullUrl with
    | true =>
        rw [intercept_of_skipped env hurl] at hrow
        exact absurd hrow hnext
    | false =>
        rw [intercept_apply env hmethod hurl] at hrow
        have hwritten := Option.toList_eq_singleton_iff.mp (List.append_cancel_left hrow)
        rw [auditLogRow_newValues hwritten, hentry]
  · have hcontains : mutatingMethods.contains request.method = false := by simpa using hmethod
    unfold intercept at hrow
    rw [hcontains] at hrow
    exact absurd hrow hnext

/-- The row of a request holds no secret exactly when no secret below the top level of the body
reaches it, and none that reads like the redaction. -/
theorem row_without_secrets_iff {env : AuditEnv} {request : AuditedRequest} {next : Handler}
    {rows : List AuditLog} {row : AuditLog} (hbody : request.body = some body)
    (hrow : (intercept env request next rows).2 = (next rows).2 ++ [row]) :
    (∀ s, body.Secret s → ¬body.Elsewhere s → ¬RowHolds body row s) ↔
      ∀ s, body.NestedSecret s ∨ s = "[REDACTED]" ∧ body.Secret s → ¬body.Elsewhere s →
        ¬body.Reached s := by
  have hvalues : row.newValues = sanitizeValues (some body) := hbody ▸ intercepted_values hrow
  constructor
  · intro h s hsecret helse hreached
    refine h s ?_ helse ((rowHolds_iff hvalues).mpr hreached)
    exact hsecret.elim nestedSecret_secret fun hred => hred.2
  · intro h s hsecret helse hholds
    have hreached := (rowHolds_iff hvalues).mp hholds
    refine h s ?_ helse hreached
    rcases (mem_sanitized body).mp (reached_mem hreached) with hred | hnested | helsewhere
    · exact Or.inr ⟨hred.1, hsecret⟩
    · exact Or.inl hnested
    · exact absurd helsewhere helse

end Row

/-! ## A secret inside the body -/

/-- The body that creates a webhook, with its secret inside an object. -/
def webhookBody : Body :=
  .object [("config", .object [("secret", .string "hunter2")])]

/-- The body that changes a password. -/
def passwordBody : Body :=
  .object [("password", .string "hunter2"), ("name", .string "Ada")]

/-- A request with a body. -/
def putRequest (body : Body) : AuditedRequest where
  method := "PUT"
  originalUrl := "/api/v1/webhooks"
  body := some body

/-- The handler that answers without writing a row. -/
def accepted : Handler := fun rows =>
  (.ok none, rows)

/-- Such a request leaves the row of its entry. -/
theorem putRequest_row (body : Body) :
    (intercept auditDatabase (putRequest body) accepted []).2 =
      (auditLogRow auditDatabase (entryOf (putRequest body) (.ok none))).toList := by
  have hurl : skipped (putRequest body).fullUrl = false := by
    change skipped (putRequest webhookBody).fullUrl = false
    decide +kernel
  rw [intercept_apply auditDatabase (by decide : "PUT" ∈ mutatingMethods) hurl]
  exact List.nil_append _

/-- The row of the nested secret holds it. -/
theorem webhook_secret_in_row :
    ∃ row, (intercept auditDatabase (putRequest webhookBody) accepted []).2 = [row] ∧
      webhookBody.Secret "hunter2" ∧ ¬webhookBody.Elsewhere "hunter2" ∧
      RowHolds webhookBody row "hunter2" := by
  have hwritten : (auditLogRow auditDatabase
      (entryOf (putRequest webhookBody) (.ok none))).isSome = true := by
    decide +kernel
  rcases Option.isSome_iff_exists.mp hwritten with ⟨row, hrow⟩
  refine ⟨row, by rw [putRequest_row, hrow]; rfl, ?_, ?_, ?_⟩
  · unfold Body.Secret
    decide +kernel
  · unfold Body.Elsewhere
    decide +kernel
  · exact (rowHolds_iff (auditLogRow_newValues hrow)).mpr
      (reached_of_short (by decide +kernel) (by decide +kernel))

/-- The row of the other request holds no secret. -/
theorem password_not_in_row :
    ∃ row, (intercept auditDatabase (putRequest passwordBody) accepted []).2 = [row] ∧
      ∀ s, passwordBody.Secret s → ¬passwordBody.Elsewhere s → ¬RowHolds passwordBody row s := by
  have hwritten : (auditLogRow auditDatabase
      (entryOf (putRequest passwordBody) (.ok none))).isSome = true := by
    decide +kernel
  rcases Option.isSome_iff_exists.mp hwritten with ⟨row, hrow⟩
  have hrows : (intercept auditDatabase (putRequest passwordBody) accepted []).2 = [row] := by
    rw [putRequest_row, hrow]
    rfl
  have hadded : (intercept auditDatabase (putRequest passwordBody) accepted []).2 =
      (accepted []).2 ++ [row] := hrows
  refine ⟨row, hrows, (row_without_secrets_iff rfl hadded).mpr ?_⟩
  rintro s (⟨p, hp, hkey, hleaf⟩ | ⟨rfl, hsecret⟩)
  · rcases List.mem_cons.mp hp with rfl | hp
    · exact absurd (by decide) hkey
    · rw [List.mem_singleton.mp hp] at hleaf
      simp [leaves] at hleaf
  · unfold Body.Secret at hsecret
    exact absurd hsecret (by decide +kernel)

end Audit
end Eleva
