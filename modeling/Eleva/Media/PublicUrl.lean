import Eleva.Foundation.Url
import Eleva.Media.MediaService

/-!
# Media - The public address of a file

The storage provider builds the address of a file from the bucket and the region, and the media
service rewrites the addresses that it takes for such to the content network.  It looks for
{lit}`s3.` or {lit}`s3-` at the beginning of the host name and for {lit}`.s3.amazonaws.com` at
its end.

Main results:

- Definitions {lit}`S3StorageProvider.getPublicUrl` and {lit}`getPublicUrl`.
- Theorem {lit}`recognizes_host`: for which buckets and regions the service recognizes the address.
- Theorem {lit}`rewritten_iff`: when the rewritten address is the one of the content network.
- Theorem {lit}`regional_bucket_not_rewritten`: the address of a bucket that is served directly.
-/

namespace Eleva
namespace PublicUrl

open Foundation Database MediaService

/-! ## The two functions -/

/-- The name of a bucket or of a region: letters, digits, hyphens, dots and underscores. -/
structure S3Name where
  text : String
  plain : ∀ c ∈ text.toList, isPlain c = true
  nonempty : text.toList ≠ []

namespace S3StorageProvider

/-- {lit}`S3StorageProvider.getPublicUrl`. -/
def getPublicUrl (bucket region : S3Name) (key : String) : String :=
  "https://" ++ bucket.text ++ ".s3." ++ region.text ++ ".amazonaws.com/" ++ key

end S3StorageProvider

/-- {lit}`s.startsWith(start)`. -/
def startsWith (s start : String) : Bool :=
  start.toList.isPrefixOf s.toList

/-- {lit}`s.replace(/\\/+$/, '')`. -/
def withoutTrailingSlashes (s : String) : String :=
  String.ofList ((s.toList.reverse.dropWhile (· == '/')).reverse)

/-- The host names that are taken for the storage's. -/
def isS3Host (hostname : String) : Bool :=
  startsWith hostname "s3." || startsWith hostname "s3-" ||
    endsWith hostname ".s3.amazonaws.com"

/-- {lit}`getPublicUrl` of the media service, with the setting {lit}`CDN_BASE_URL`. -/
def getPublicUrl (validLabel : String → Bool) (cdnBase : Option String) (url : String) : String :=
  match cdnBase with
  | none => url
  | some base =>
      if base = "" then url
      else
        match parseHttps validLabel url with
        | some parsed =>
            if isS3Host parsed.hostname then withoutTrailingSlashes base ++ parsed.pathname else url
        | none => url

/-! ## Keys -/

/-- The characters of generated ids. -/
def isIdChar (c : Char) : Bool :=
  c.isAlphanum || c == '-'

/-- The parts of an object's key between the slashes. -/
def keySegments (call : UploadCall) (mediaType : MediaType) (now : Timestamp) (ending : String) :
    List (List Char) :=
  ["tenants".toList, call.tenantId.toList, (folderOf mediaType).toList,
    (toString now).toList ++ '-' :: (call.file.checksum.digest.toList.take 8 ++ ending.toList)]

/-- The ends of the keys of an upload. -/
def keyEndings : List String :=
  ["-original.webp", "-thumbnail.webp", "-medium.webp", "-large.webp", ".pdf"]

section Keys

variable {call : UploadCall} {mediaType : MediaType} {now : Timestamp} {key ending : String}

/-- A key that an attempt forms, part by part. -/
theorem key_eq_segments (h : key ∈ attemptStorageKeys call mediaType now) :
    ∃ ending ∈ keyEndings,
      key = String.ofList (List.intercalate ['/'] (keySegments call mediaType now ending)) := by
  have hform : ∃ ending ∈ keyEndings, key = attemptKey call mediaType now ++ ending := by
    unfold attemptStorageKeys at h
    cases mediaType with
    | DOCUMENT => exact ⟨".pdf", by decide, List.mem_singleton.mp h⟩
    | IMAGE | LOGO | BANNER | AVATAR =>
        simp only [imageKeys, List.mem_cons, List.not_mem_nil, or_false] at h
        rcases h with rfl | rfl | rfl | rfl
        · exact ⟨"-original.webp", by decide, rfl⟩
        · exact ⟨"-thumbnail.webp", by decide, rfl⟩
        · exact ⟨"-medium.webp", by decide, rfl⟩
        · exact ⟨"-large.webp", by decide, rfl⟩
  rcases hform with ⟨ending, hending, rfl⟩
  refine ⟨ending, hending, String.toList_inj.mp ?_⟩
  simp [attemptKey, keySegments, List.intercalate_cons_cons]

theorem isPlain_of_isIdChar {c : Char} (h : isIdChar c = true) : isPlain c = true := by
  unfold isIdChar at h
  unfold isPlain
  rw [h, Bool.true_or, Bool.true_or]

theorem isPlain_of_isDigit {c : Char} (h : c.isDigit = true) : isPlain c = true := by
  apply isPlain_of_isIdChar
  unfold isIdChar Char.isAlphanum
  rw [h, Bool.or_true, Bool.true_or]

/-- The digits of a time stamp are plain. -/
theorem timestamp_plain : ∀ c ∈ (toString now).toList, isPlain c = true := by
  have hrepr : ∀ n : ℕ, ∀ c ∈ (Nat.repr n).toList, isPlain c = true := by
    intro n c hc
    rw [Nat.repr, String.toList_ofList] at hc
    exact isPlain_of_isDigit (Nat.isDigit_of_mem_toDigits (by decide) (by decide) hc)
  intro c hc
  cases now with
  | ofNat n => exact hrepr n c hc
  | negSucc n =>
      have htext : (toString (Int.negSucc n)).toList = '-' :: (Nat.repr (n + 1)).toList := by
        change ("-" ++ Nat.repr (n + 1)).toList = _
        simp
      rw [htext] at hc
      rcases List.mem_cons.mp hc with rfl | hc
      · rfl
      · exact hrepr _ c hc

theorem digest_plain : ∀ c ∈ call.file.checksum.digest.toList, isPlain c = true := by
  intro c hc
  have hhex := call.file.checksum.hex c hc
  have hall : ∀ d ∈ "0123456789abcdef".toList, isPlain d = true :=
    List.all_eq_true.mp (by decide)
  exact hall c hhex

/-- The parts of a key are plain. -/
theorem keySegments_plain (htenant : ∀ c ∈ call.tenantId.toList, isIdChar c = true)
    (hending : ending ∈ keyEndings) :
    ∀ s ∈ keySegments call mediaType now ending, ∀ c ∈ s, isPlain c = true := by
  have hall : ∀ e ∈ keyEndings, e.toList.all isPlain = true := by decide
  have hendings : ∀ e ∈ keyEndings, ∀ c ∈ e.toList, isPlain c = true :=
    fun e he => List.all_eq_true.mp (hall e he)
  intro s hs c hc
  unfold keySegments at hs
  simp only [List.mem_cons, List.not_mem_nil, or_false] at hs
  rcases hs with rfl | rfl | rfl | rfl
  · have hfixed : ∀ d ∈ "tenants".toList, isPlain d = true :=
      List.all_eq_true.mp (by decide)
    exact hfixed c hc
  · exact isPlain_of_isIdChar (htenant c hc)
  · cases mediaType <;> exact List.all_eq_true.mp (by decide) c hc
  · rcases List.mem_append.mp hc with hc | hc
    · exact timestamp_plain c hc
    · rcases List.mem_cons.mp hc with rfl | hc
      · rfl
      · rcases List.mem_append.mp hc with hc | hc
        · exact digest_plain c (List.mem_of_mem_take hc)
        · exact hendings ending hending c hc

/-- The parts of a key are no dot segments. -/
theorem keySegments_notDots (htenant : ∀ c ∈ call.tenantId.toList, isIdChar c = true) :
    ∀ s ∈ keySegments call mediaType now ending, notDots s = true := by
  intro s hs
  unfold keySegments at hs
  simp only [List.mem_cons, List.not_mem_nil, or_false] at hs
  rcases hs with rfl | rfl | rfl | rfl
  · decide
  · apply notDots_of_forall_ne
    intro c hc
    have hid := htenant c hc
    constructor
    · rintro rfl
      revert hid
      decide
    · rintro rfl
      revert hid
      decide
  · cases mediaType <;> decide
  · exact notDots_of_hyphen (List.mem_append_right _ List.mem_cons_self)

end Keys

/-! ## Host names -/

section Hosts

variable {validLabel : String → Bool} {bucket region : S3Name}

/-- The host name that the provider builds. -/
def bucketHost (bucket region : S3Name) : List Char :=
  bucket.text.toList ++ ".s3.".toList ++ region.text.toList ++ ".amazonaws.com".toList

theorem bucketHost_plain : ∀ c ∈ bucketHost bucket region, isPlain c = true := by
  have hfixed : ∀ c ∈ ".s3.".toList ++ ".amazonaws.com".toList, isPlain c = true :=
    List.all_eq_true.mp (by decide)
  intro c hc
  unfold bucketHost at hc
  rcases List.mem_append.mp hc with hc | hc
  · rcases List.mem_append.mp hc with hc | hc
    · rcases List.mem_append.mp hc with hc | hc
      · exact bucket.plain c hc
      · exact hfixed c (List.mem_append_left _ hc)
    · exact region.plain c hc
  · exact hfixed c (List.mem_append_right _ hc)

theorem bucketHost_ne_nil : bucketHost bucket region ≠ [] := by
  simp [bucketHost]

/-- The address of a file as an address of a plain host. -/
theorem getPublicUrl_eq (segments : List (List Char)) :
    S3StorageProvider.getPublicUrl bucket region
        (String.ofList (List.intercalate ['/'] segments)) =
      plainUrl (bucketHost bucket region) segments := by
  apply String.toList_inj.mp
  simp [S3StorageProvider.getPublicUrl, plainUrl, bucketHost]

/-- The bucket or the region has a name by which the service takes the address for the storage's:
the bucket's name begins with {lit}`s3` and a dot or hyphen or is {lit}`s3` alone, or the
region's name is {lit}`s3` or ends with it after a dot. -/
def Recognized (bucket region : S3Name) : Prop :=
  startsWith (asciiLowerCase bucket.text ++ ".") "s3." = true ∨
    startsWith (asciiLowerCase bucket.text ++ ".") "s3-" = true ∨
    endsWith ("." ++ asciiLowerCase region.text) ".s3" = true

/-- Three characters at the beginning of a host name are those of the bucket and the dot. -/
theorem startsWith_host {b rest : List Char} (hb : b ≠ []) {c : Char} :
    ['s', '3', c].isPrefixOf (b ++ '.' :: 's' :: rest) = true ↔
      ['s', '3', c].isPrefixOf (b ++ ['.']) = true := by
  cases b with
  | nil => exact absurd rfl hb
  | cons b₁ b =>
      cases b with
      | nil => simp [List.isPrefixOf]
      | cons b₂ b =>
          cases b with
          | nil => simp [List.isPrefixOf]
          | cons b₃ b => simp [List.isPrefixOf]

/-- Three characters before the common end of a host name are those of the dot and the region. -/
theorem endsWith_host {front r : List Char} (hr : r ≠ []) :
    ['.', 's', '3'].isSuffixOf (front ++ ['s', '3', '.'] ++ r) = true ↔
      ['.', 's', '3'].isSuffixOf ('.' :: r) = true := by
  rw [← List.reverse_reverse r]
  cases hlast : r.reverse with
  | nil => exact absurd (List.reverse_eq_nil_iff.mp hlast) hr
  | cons r₁ rest =>
      unfold List.isSuffixOf
      cases rest with
      | nil => simp [List.isPrefixOf]
      | cons r₂ rest =>
          cases rest with
          | nil => simp [List.isPrefixOf]
          | cons r₃ rest => simp [List.isPrefixOf]

/-- The common end of the two texts does not matter. -/
theorem isSuffixOf_append_iff {s t u : List Char} :
    (s ++ u).isSuffixOf (t ++ u) = true ↔ s.isSuffixOf t = true := by
  rw [List.isSuffixOf_iff_suffix, List.isSuffixOf_iff_suffix]
  exact List.suffix_append_self_iff

/-- For which buckets and regions the service recognizes the address. -/
theorem recognizes_host : isS3Host (String.ofList (lowered (bucketHost bucket region))) = true ↔
    Recognized bucket region := by
  have hfixed : lowered ".s3.".toList = ".s3.".toList ∧
      lowered ".amazonaws.com".toList = ".amazonaws.com".toList := by decide
  have hhost : lowered (bucketHost bucket region) =
      lowered bucket.text.toList ++ ".s3.".toList ++ lowered region.text.toList ++
        ".amazonaws.com".toList := by
    unfold bucketHost
    rw [lowered, List.map_append, List.map_append, List.map_append]
    unfold lowered at hfixed
    rw [hfixed.1, hfixed.2]
    rfl
  have hbucket : lowered bucket.text.toList ≠ [] := by
    simpa [lowered] using bucket.nonempty
  have hregion : lowered region.text.toList ≠ [] := by
    simpa [lowered] using region.nonempty
  have hstart : ∀ start : String, ∀ c, start.toList = ['s', '3', c] →
      (startsWith (String.ofList (lowered (bucketHost bucket region))) start = true ↔
        startsWith (asciiLowerCase bucket.text ++ ".") start = true) := by
    intro start c hc
    have htext : (asciiLowerCase bucket.text ++ ".").toList =
        lowered bucket.text.toList ++ ['.'] := by
      simp [asciiLowerCase, lowered]
    have hsplit : lowered bucket.text.toList ++ ".s3.".toList ++ lowered region.text.toList ++
        ".amazonaws.com".toList = lowered bucket.text.toList ++ '.' :: 's' ::
          ('3' :: '.' :: (lowered region.text.toList ++ ".amazonaws.com".toList)) := by
      simp
    unfold startsWith
    rw [hc, String.toList_ofList, htext, hhost, hsplit]
    exact startsWith_host hbucket
  have hend : endsWith (String.ofList (lowered (bucketHost bucket region)))
      ".s3.amazonaws.com" = true ↔ endsWith ("." ++ asciiLowerCase region.text) ".s3" = true := by
    have htext : ("." ++ asciiLowerCase region.text).toList =
        '.' :: lowered region.text.toList := by
      simp [asciiLowerCase, lowered]
    have hleft : endsWith (String.ofList (lowered (bucketHost bucket region)))
        ".s3.amazonaws.com" = (['.', 's', '3'] ++ ".amazonaws.com".toList).isSuffixOf
          ((lowered bucket.text.toList ++ ['.'] ++ ['s', '3', '.'] ++
            lowered region.text.toList) ++ ".amazonaws.com".toList) := by
      unfold endsWith
      rw [String.toList_ofList, hhost]
      simp
    have hright : endsWith ("." ++ asciiLowerCase region.text) ".s3" =
        ['.', 's', '3'].isSuffixOf ('.' :: lowered region.text.toList) := by
      unfold endsWith
      rw [htext]
      rfl
    rw [hleft, isSuffixOf_append_iff, hright]
    exact endsWith_host hregion
  unfold isS3Host Recognized
  rw [Bool.or_eq_true, Bool.or_eq_true, hstart "s3." '.' (by decide), hstart "s3-" '-' (by decide),
    hend, or_assoc]

/-! ## Rewriting -/

variable {call : UploadCall} {mediaType : MediaType} {now : Timestamp} {key base : String}

/-- What the service makes of the address of an upload's file. -/
theorem getPublicUrl_run (validLabel : String → Bool) (hbase : base ≠ "")
    (htenant : ∀ c ∈ call.tenantId.toList, isIdChar c = true)
    (hkey : key ∈ attemptStorageKeys call mediaType now) :
    getPublicUrl validLabel (some base) (S3StorageProvider.getPublicUrl bucket region key) =
      if validHost validLabel (lowered (bucketHost bucket region)) &&
          isS3Host (String.ofList (lowered (bucketHost bucket region))) then
        withoutTrailingSlashes base ++ ("/" ++ key)
      else S3StorageProvider.getPublicUrl bucket region key := by
  rcases key_eq_segments hkey with ⟨ending, hending, rfl⟩
  have hparse : parseHttps validLabel
      (plainUrl (bucketHost bucket region) (keySegments call mediaType now ending)) = _ :=
    parseHttps_plain validLabel bucketHost_plain bucketHost_ne_nil
      (keySegments_plain htenant hending) (keySegments_notDots htenant)
  unfold getPublicUrl
  simp only [if_neg hbase]
  rw [getPublicUrl_eq, hparse]
  cases hvalid : validHost validLabel (lowered (bucketHost bucket region)) with
  | true =>
      rw [if_pos rfl, Bool.true_and]
      rfl
  | false =>
      rw [if_neg Bool.false_ne_true, Bool.false_and, if_neg Bool.false_ne_true]

/-- The rewritten address is the one of the content network exactly when the service recognizes
the address of the bucket, or when the content network is the bucket itself. -/
theorem rewritten_iff (validLabel : String → Bool) (hbase : base ≠ "")
    (htenant : ∀ c ∈ call.tenantId.toList, isIdChar c = true)
    (hkey : key ∈ attemptStorageKeys call mediaType now) :
    getPublicUrl validLabel (some base) (S3StorageProvider.getPublicUrl bucket region key) =
        withoutTrailingSlashes base ++ "/" ++ key ↔
      (validHost validLabel (lowered (bucketHost bucket region)) = true ∧
        Recognized bucket region) ∨
      withoutTrailingSlashes base = "https://" ++ String.ofList (bucketHost bucket region) := by
  rw [getPublicUrl_run validLabel hbase htenant hkey]
  by_cases hrecognized : (validHost validLabel (lowered (bucketHost bucket region)) &&
      isS3Host (String.ofList (lowered (bucketHost bucket region)))) = true
  · rw [if_pos hrecognized]
    rw [Bool.and_eq_true, recognizes_host] at hrecognized
    exact iff_of_true (String.append_assoc ..).symm (Or.inl hrecognized)
  · rw [if_neg hrecognized]
    rw [Bool.and_eq_true, recognizes_host] at hrecognized
    have haddress : S3StorageProvider.getPublicUrl bucket region key =
        "https://" ++ String.ofList (bucketHost bucket region) ++ "/" ++ key := by
      apply String.toList_inj.mp
      simp [S3StorageProvider.getPublicUrl, bucketHost]
    rw [haddress]
    constructor
    · intro hsame
      have hlist := congrArg String.toList hsame
      simp only [String.toList_append, List.append_assoc] at hlist
      rw [← List.append_assoc, List.append_left_inj] at hlist
      refine Or.inr (String.toList_inj.mp ?_)
      rw [String.toList_append]
      exact hlist.symm
    · rintro (h | hown)
      · exact absurd h hrecognized
      · rw [hown]

end Hosts

/-! ## Two buckets -/

theorem zayjarMedia_plain : ∀ c ∈ "zayjar-media".toList, isPlain c = true :=
  List.all_eq_true.mp (by decide)

theorem zayjarMedia_nonempty : "zayjar-media".toList ≠ [] := by decide

def zayjarMedia : S3Name where
  text := "zayjar-media"
  plain := zayjarMedia_plain
  nonempty := zayjarMedia_nonempty

theorem s3Zayjar_plain : ∀ c ∈ "s3-zayjar".toList, isPlain c = true :=
  List.all_eq_true.mp (by decide)

theorem s3Zayjar_nonempty : "s3-zayjar".toList ≠ [] := by decide

def s3Zayjar : S3Name where
  text := "s3-zayjar"
  plain := s3Zayjar_plain
  nonempty := s3Zayjar_nonempty

theorem usEast_plain : ∀ c ∈ "us-east-1".toList, isPlain c = true :=
  List.all_eq_true.mp (by decide)

theorem usEast_nonempty : "us-east-1".toList ≠ [] := by decide

def usEast : S3Name where
  text := "us-east-1"
  plain := usEast_plain
  nonempty := usEast_nonempty

/-- A host without labels in Punycode. -/
def noPunycode (_label : String) : Bool :=
  false

theorem digit_a : 'a' ∈ "0123456789abcdef".toList := by decide

/-- A logo of the restaurant. -/
def logo : UploadCall :=
  logoUpload (digestOf 'a' digit_a)

def logoKey : String :=
  "tenants/tenant-a/logo/1700000000000-aaaaaaaa-original.webp"

theorem logoKey_mem : logoKey ∈ attemptStorageKeys logo .LOGO 1700000000000 := by
  decide +kernel

theorem tenant_ids : ∀ c ∈ logo.tenantId.toList, isIdChar c = true :=
  List.all_eq_true.mp (by decide +kernel)

theorem s3Zayjar_recognized :
    validHost noPunycode (lowered (bucketHost s3Zayjar usEast)) = true ∧
      startsWith (asciiLowerCase s3Zayjar.text ++ ".") "s3-" = true := by
  decide +kernel

/-- The address of a bucket whose name begins in the right way. -/
theorem s3Zayjar_rewritten :
    getPublicUrl noPunycode (some "https://cdn.zayjar.com/")
        (S3StorageProvider.getPublicUrl s3Zayjar usEast logoKey) =
      withoutTrailingSlashes "https://cdn.zayjar.com/" ++ "/" ++ logoKey :=
  (rewritten_iff noPunycode (by decide) tenant_ids logoKey_mem).mpr
    (Or.inl ⟨s3Zayjar_recognized.1, Or.inr (Or.inl s3Zayjar_recognized.2)⟩)

/-- The address of another bucket is served as it is. -/
theorem regional_bucket_not_rewritten :
    logoKey ∈ attemptStorageKeys logo .LOGO 1700000000000 ∧
      getPublicUrl noPunycode (some "https://cdn.zayjar.com")
          (S3StorageProvider.getPublicUrl zayjarMedia usEast logoKey) =
        S3StorageProvider.getPublicUrl zayjarMedia usEast logoKey ∧
      getPublicUrl noPunycode (some "https://cdn.zayjar.com")
          (S3StorageProvider.getPublicUrl zayjarMedia usEast logoKey) ≠
        withoutTrailingSlashes "https://cdn.zayjar.com" ++ "/" ++ logoKey := by
  decide +kernel

end PublicUrl
end Eleva
