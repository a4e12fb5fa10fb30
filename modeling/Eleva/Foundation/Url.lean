import Mathlib.Data.List.Basic
import Mathlib.Data.List.Infix
import Eleva.Foundation.Text

/-!
# Foundation - Web addresses as the runtime parses them

The host name and the path of an address of the scheme {lit}`https`, as {lit}`new URL` reads them:
the host is written in lower case, the path loses its dot segments and has the characters
percent-encoded that may not stand in it.  Addresses with credentials or a port are left out.

Main results:

- Theorem {lit}`parsePath_segments`: a path of plain segments is read as it is written.
- Theorem {lit}`parseHttps_plain`: the parts of an address of a plain host and a plain path.
-/

namespace Eleva
namespace Foundation

/-! ## Characters -/

/-- Letters and digits, and the signs that stand for themselves in a host and in a path. -/
def isPlain (c : Char) : Bool :=
  c.isAlphanum || c == '-' || c == '.' || c == '_'

/-- The characters that are percent-encoded in a path: controls, all beyond ASCII, the blank, the
double quote, the hash, the angle brackets, the question mark, the caret, the backtick and the curly
brackets. -/
def inPathSet (c : Char) : Bool :=
  c.toNat ≤ 0x1F || 0x7E < c.toNat ||
    [0x20, 0x22, 0x23, 0x3C, 0x3E, 0x3F, 0x5E, 0x60, 0x7B, 0x7D].contains c.toNat

/-- A digit of a percent-encoded byte. -/
def hexDigit (n : ℕ) : Char :=
  "0123456789ABCDEF".toList.getD n '0'

/-- A character in a path. -/
def percentEncode (c : Char) : List Char :=
  if inPathSet c then
    (String.utf8EncodeChar c).flatMap fun byte =>
      ['%', hexDigit (byte.toNat / 16), hexDigit (byte.toNat % 16)]
  else [c]

/-- The characters that end the authority of an address. -/
def endsAuthority (c : Char) : Bool :=
  c == '/' || c == '\\' || c == '?' || c == '#'

/-- A text in lower case. -/
def lowered (text : List Char) : List Char :=
  text.map Char.toLower

/-! ## Paths -/

/-- The spellings of the segment that stands for the folder itself. -/
def singleDots : List (List Char) :=
  [['.'], ['%', '2', 'e']]

/-- The spellings of the segment that stands for the folder above. -/
def doubleDots : List (List Char) :=
  [['.', '.'], ['.', '%', '2', 'e'], ['%', '2', 'e', '.'], ['%', '2', 'e', '%', '2', 'e']]

/-- The segments after another one, the last or not. -/
def endSegment (last : Bool) (path : List (List Char)) (segment : List Char) :
    List (List Char) :=
  if doubleDots.contains (lowered segment) then path.dropLast ++ if last then [[]] else []
  else if singleDots.contains (lowered segment) then path ++ if last then [[]] else []
  else path ++ [segment]

/-- The segments of a path, those before and the beginning of the present one being known. -/
def parsePath (path : List (List Char)) (buffer : List Char) : List Char → List (List Char)
  | [] => endSegment true path buffer
  | c :: cs =>
      if c == '/' || c == '\\' then parsePath (endSegment false path buffer) [] cs
      else if c == '?' || c == '#' then endSegment true path buffer
      else parsePath path (buffer ++ percentEncode c) cs

/-! ## Addresses -/

/-- The parts of an address. -/
structure ParsedUrl where
  hostname : String
  pathname : String
deriving DecidableEq, Repr

/-- The labels of a host that are written in Punycode are valid. -/
def validHost (validLabel : String → Bool) (host : List Char) : Bool :=
  (host.splitOn '.').all fun label =>
    !"xn--".toList.isPrefixOf label || validLabel (String.ofList label)

/-- The path as a text. -/
def pathText (path : List (List Char)) : String :=
  String.ofList (path.flatMap fun segment => '/' :: segment)

/-- {lit}`new URL(url)`, which throws where there is no result. -/
def parseHttps (validLabel : String → Bool) (url : String) : Option ParsedUrl :=
  if "https://".toList.isPrefixOf url.toList then
    let rest := url.toList.drop 8
    let host := rest.takeWhile (!endsAuthority ·)
    if host.isEmpty || !host.all isPlain || !validHost validLabel (lowered host) then none
    else
      some {
        hostname := String.ofList (lowered host)
        pathname := pathText
          (match rest.dropWhile (!endsAuthority ·) with
            | [] => [[]]
            | c :: cs =>
                if c == '/' || c == '\\' then parsePath [] [] cs else parsePath [] [] (c :: cs)) }
  else none

/-! ## Plain characters -/

theorem isPlain_cases {c : Char} (h : isPlain c = true) :
    c.isAlphanum = true ∨ c = '-' ∨ c = '.' ∨ c = '_' := by
  simpa [isPlain, or_assoc] using h

/-- The code of a letter or digit. -/
theorem isAlphanum_bounds {c : Char} (h : c.isAlphanum = true) :
    (48 ≤ c.toNat ∧ c.toNat ≤ 57) ∨ (65 ≤ c.toNat ∧ c.toNat ≤ 90) ∨
      (97 ≤ c.toNat ∧ c.toNat ≤ 122) := by
  have hcases : ((decide (c.val ≥ 65 ∧ c.val ≤ 90) ||
      (decide (c.val ≥ 97) && decide (c.val ≤ 122))) ||
      (decide (c.val ≥ 48) && decide (c.val ≤ 57))) = true := h
  simp only [Bool.or_eq_true, Bool.and_eq_true, decide_eq_true_eq, ge_iff_le,
    UInt32.le_iff_toNat_le] at hcases
  change ((65 ≤ c.toNat ∧ c.toNat ≤ 90) ∨ (97 ≤ c.toNat ∧ c.toNat ≤ 122)) ∨
    (48 ≤ c.toNat ∧ c.toNat ≤ 57) at hcases
  omega

/-- A plain character is none of the other ASCII signs. -/
theorem isPlain_ne {c d : Char} (h : isPlain c = true) (hd : isPlain d = false) : c ≠ d := by
  rintro rfl
  rw [h] at hd
  cases hd

theorem inPathSet_of_isPlain {c : Char} (h : isPlain c = true) : inPathSet c = false := by
  unfold inPathSet
  rcases isPlain_cases h with halpha | rfl | rfl | rfl
  · have hbounds := isAlphanum_bounds halpha
    simp only [List.contains_eq_mem, List.mem_cons, List.not_mem_nil, or_false,
      Bool.or_eq_false_iff, decide_eq_false_iff_not]
    omega
  · decide
  · decide
  · decide

theorem percentEncode_of_isPlain {c : Char} (h : isPlain c = true) : percentEncode c = [c] := by
  unfold percentEncode
  rw [inPathSet_of_isPlain h]
  rfl

theorem endsAuthority_of_isPlain {c : Char} (h : isPlain c = true) : endsAuthority c = false := by
  have hne : ∀ d ∈ ['/', '\\', '?', '#'], c ≠ d := by
    intro d hd
    have hnone : ['/', '\\', '?', '#'].all (fun d => !isPlain d) = true := by decide
    exact isPlain_ne h (by simpa using List.all_eq_true.mp hnone d hd)
  simp [endsAuthority, hne '/' (by decide), hne '\\' (by decide), hne '?' (by decide),
    hne '#' (by decide)]

/-! ## Plain paths -/

/-- A segment is no spelling of a dot segment. -/
def notDots (segment : List Char) : Bool :=
  !doubleDots.contains (lowered segment) && !singleDots.contains (lowered segment)

theorem endSegment_of_notDots {segment : List Char} (h : notDots segment = true) (last : Bool)
    (path : List (List Char)) : endSegment last path segment = path ++ [segment] := by
  unfold notDots at h
  rw [Bool.and_eq_true, Bool.not_eq_true', Bool.not_eq_true'] at h
  unfold endSegment
  rw [h.1, h.2]
  rfl

theorem notDots_of_not_mem {segment : List Char}
    (h : lowered segment ∉ doubleDots ++ singleDots) : notDots segment = true := by
  rw [List.mem_append, not_or] at h
  simp [notDots, h.1, h.2]

/-- A segment with a character that is in no spelling of a dot segment. -/
theorem notDots_of_hyphen {segment : List Char} (h : '-' ∈ segment) : notDots segment = true := by
  apply notDots_of_not_mem
  intro hdots
  have hnone : ∀ d ∈ doubleDots ++ singleDots, '-' ∉ d := by decide
  exact hnone _ hdots (List.mem_map.mpr ⟨'-', h, by decide⟩)

/-- A segment without a dot and without a percent sign. -/
theorem notDots_of_forall_ne {segment : List Char} (h : ∀ c ∈ segment, c ≠ '.' ∧ c ≠ '%') :
    notDots segment = true := by
  apply notDots_of_not_mem
  intro hdots
  have hsome : ∀ d ∈ doubleDots ++ singleDots, '.' ∈ d ∨ '%' ∈ d := by decide
  have hback : ∀ c d : Char, c.toLower = d → d.toNat < 65 → c = d := by
    intro c d hlower hcode
    have hnat := toNat_toLower c
    rw [hlower] at hnat
    apply Char.toNat_inj.mp
    split at hnat <;> omega
  rcases hsome _ hdots with hdot | hpercent
  · rcases List.mem_map.mp hdot with ⟨c, hc, hlower⟩
    exact (h c hc).1 (hback c '.' hlower (by decide))
  · rcases List.mem_map.mp hpercent with ⟨c, hc, hlower⟩
    exact (h c hc).2 (hback c '%' hlower (by decide))

/-- Plain characters go into the present segment. -/
theorem parsePath_plain {segment : List Char} (h : ∀ c ∈ segment, isPlain c = true)
    (path : List (List Char)) (buffer rest : List Char) :
    parsePath path buffer (segment ++ rest) = parsePath path (buffer ++ segment) rest := by
  induction segment generalizing buffer with
  | nil => simp
  | cons c cs ih =>
      have hc := h c List.mem_cons_self
      have hends := endsAuthority_of_isPlain hc
      simp only [endsAuthority, Bool.or_eq_false_iff] at hends
      rw [List.cons_append, parsePath, hends.1.1.1, hends.1.1.2, hends.1.2, hends.2,
        percentEncode_of_isPlain hc]
      have hrest := ih (fun d hd => h d (List.mem_cons_of_mem c hd)) (buffer ++ [c])
      rw [List.append_assoc, List.singleton_append] at hrest
      exact hrest

/-- A path of plain segments is read as it is written. -/
theorem parsePath_segments {segment : List Char} {segments : List (List Char)}
    (hplain : ∀ s ∈ segment :: segments, ∀ c ∈ s, isPlain c = true)
    (hdots : ∀ s ∈ segment :: segments, notDots s = true) (path : List (List Char)) :
    parsePath path [] (List.intercalate ['/'] (segment :: segments)) =
      path ++ segment :: segments := by
  induction segments generalizing segment path with
  | nil =>
      have hread := parsePath_plain (hplain segment List.mem_cons_self) path [] []
      rw [List.append_nil, List.nil_append] at hread
      rw [List.intercalate_singleton, hread, parsePath,
        endSegment_of_notDots (hdots segment List.mem_cons_self)]
  | cons next segments ih =>
      rw [List.intercalate_cons_cons, List.append_assoc,
        parsePath_plain (hplain segment List.mem_cons_self), List.nil_append,
        List.singleton_append, parsePath]
      rw [show ('/' == '/' || '/' == '\\') = true from rfl, if_pos rfl,
        endSegment_of_notDots (hdots segment List.mem_cons_self),
        ih (fun s hs => hplain s (List.mem_cons_of_mem _ hs))
          (fun s hs => hdots s (List.mem_cons_of_mem _ hs)), List.append_assoc]
      rfl

/-- The text of segments that are joined by slashes. -/
theorem pathText_cons (segment : List Char) (segments : List (List Char)) :
    pathText (segment :: segments) =
      "/" ++ String.ofList (List.intercalate ['/'] (segment :: segments)) := by
  have hlist : ∀ segments segment, (segment :: segments).flatMap (fun s => '/' :: s) =
      '/' :: List.intercalate ['/'] (segment :: segments) := by
    intro segments
    induction segments with
    | nil => simp
    | cons next segments ih =>
        intro segment
        rw [List.flatMap_cons, ih, List.intercalate_cons_cons]
        simp
  apply String.toList_inj.mp
  unfold pathText
  rw [hlist]
  simp

/-! ## Plain addresses -/

/-- An address of a plain host and a path of plain segments. -/
def plainUrl (host : List Char) (segments : List (List Char)) : String :=
  "https://" ++ String.ofList host ++ "/" ++ String.ofList (List.intercalate ['/'] segments)

/-- The parts of an address of a plain host and a plain path. -/
theorem parseHttps_plain (validLabel : String → Bool) {host segment : List Char}
    {segments : List (List Char)} (hhost : ∀ c ∈ host, isPlain c = true) (hne : host ≠ [])
    (hplain : ∀ s ∈ segment :: segments, ∀ c ∈ s, isPlain c = true)
    (hdots : ∀ s ∈ segment :: segments, notDots s = true) :
    parseHttps validLabel (plainUrl host (segment :: segments)) =
      if validHost validLabel (lowered host) = true then
        some {
          hostname := String.ofList (lowered host)
          pathname := "/" ++ String.ofList (List.intercalate ['/'] (segment :: segments)) }
      else none := by
  have htext : (plainUrl host (segment :: segments)).toList =
      "https://".toList ++ (host ++ '/' :: List.intercalate ['/'] (segment :: segments)) := by
    simp [plainUrl]
  have hpass : ∀ c ∈ host, (!endsAuthority c) = true := by
    intro c hc
    rw [endsAuthority_of_isPlain (hhost c hc)]
    rfl
  have hstop : (!endsAuthority '/') = false := rfl
  have htake : (host ++ '/' :: List.intercalate ['/'] (segment :: segments)).takeWhile
      (!endsAuthority ·) = host := by
    rw [List.takeWhile_append_of_pos hpass, List.takeWhile_cons, hstop]
    simp
  have hdrop : (host ++ '/' :: List.intercalate ['/'] (segment :: segments)).dropWhile
      (!endsAuthority ·) = '/' :: List.intercalate ['/'] (segment :: segments) := by
    rw [List.dropWhile_append_of_pos hpass, List.dropWhile_cons, hstop]
    simp
  have hscheme : "https://".toList.isPrefixOf (plainUrl host (segment :: segments)).toList =
      true := by
    rw [htext, List.isPrefixOf_iff_prefix]
    exact List.prefix_append _ _
  have hrest : (plainUrl host (segment :: segments)).toList.drop 8 =
      host ++ '/' :: List.intercalate ['/'] (segment :: segments) := by
    rw [htext]
    rfl
  have hall : host.all isPlain = true := List.all_eq_true.mpr hhost
  have hempty : host.isEmpty = false := by simpa using hne
  unfold parseHttps
  rw [if_pos hscheme]
  simp only [hrest, htake, hdrop, hall, hempty, Bool.not_true, Bool.or_false, Bool.false_or]
  by_cases hvalid : validHost validLabel (lowered host) = true
  · rw [if_pos hvalid, hvalid]
    simp only [Bool.not_true, Bool.false_eq_true, if_false]
    rw [show ('/' == '/' || '/' == '\\') = true from rfl, if_pos rfl,
      parsePath_segments hplain hdots, List.nil_append, pathText_cons]
  · rw [if_neg hvalid, Bool.eq_false_iff.mpr hvalid]
    rfl

end Foundation
end Eleva
