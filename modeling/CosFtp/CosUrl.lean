/-
# The URL of an object

The COS SDK names an object by a URL. `EncodePath` takes a path apart at its
slashes, leaves out what is empty between two of them, writes each name with
`UrlEncode` and keeps the slash at the end that makes a folder of it. So a URL
is read back as the names of the path (`encodePath_names`), and two paths name
one object exactly if their names and their ends are the same.

The text of the URL goes through a buffer of 10240 bytes, and what a request
for one object signs, the `file_id`, through one of 2048. What does not fit is
cut off without an error.

The locale is that of C, as the server never sets another, and `isalnum` is
true of ASCII only.

Key definitions: `urlEncode`, `encodePath`, `formatPath`, `isLegalFolderPath`,
`getEncodedCosUrl`, `getEncodedDownloadCosUrl`, `delBase`, `ObjectName`.
Key theorems: `urlDecode_urlEncode`, `encodePath_names`, `formatPath_name`.
-/
import CosFtp.CosDownload
import CosFtp.PasvReply
import Mathlib.Data.List.DropRight
import CosFtp.Lib.Fields

namespace CosFtp
namespace Sdk

open Fields

/-! ### A name -/

/-- `CodecUtil::ToHex`. -/
def toHex (x : UInt8) : UInt8 := if x > 9 then x - 10 + 65 else x + 48

/-- What `UrlEncode` leaves as it is. -/
def isPlain (b : UInt8) : Bool := isalnum b || b = 45 || b = 95 || b = 46 || b = 126 || b = 47

/-- One round of the loop of `UrlEncode`. -/
def urlEncodeByte (b : UInt8) : Bytes := if isPlain b then [b] else [37, toHex (b >>> 4), toHex (b % 16)]

/-- `CodecUtil::UrlEncode`. -/
def urlEncode (str : Bytes) : Bytes := str.flatMap urlEncodeByte

/-- The digit that `toHex` writes. -/
def fromHex (x : UInt8) : UInt8 := if 65 ≤ x then x - 65 + 10 else x - 48

/-- How an encoded name is read. -/
def urlDecode : Bytes → Bytes
  | [] => []
  | b :: rest =>
    match b, rest with
    | 37, hi :: lo :: rest => (fromHex hi * 16 + fromHex lo) :: urlDecode rest
    | b, rest => b :: urlDecode rest

theorem isPlain_percent : isPlain 37 = false := by decide

/-- The digits of a byte make up the byte, and are no slash. -/
theorem hex_of_byte (b : UInt8) : fromHex (toHex (b >>> 4)) * 16 + fromHex (toHex (b % 16)) = b ∧
    isPlain (toHex (b >>> 4)) = true ∧ isPlain (toHex (b % 16)) = true ∧
    toHex (b >>> 4) ≠ 47 ∧ toHex (b % 16) ≠ 47 := by
  have hall : ∀ n : Fin 256, let b := UInt8.ofBitVec ⟨n⟩
      fromHex (toHex (b >>> 4)) * 16 + fromHex (toHex (b % 16)) = b ∧
        isPlain (toHex (b >>> 4)) = true ∧ isPlain (toHex (b % 16)) = true ∧
        toHex (b >>> 4) ≠ 47 ∧ toHex (b % 16) ≠ 47 := by
    decide +kernel
  exact hall b.toBitVec.toFin

theorem urlDecode_byte (b : UInt8) (rest : Bytes) : urlDecode (urlEncodeByte b ++ rest) = b :: urlDecode rest := by
  unfold urlEncodeByte
  cases hplain : isPlain b with
  | true =>
    have hne : b ≠ 37 := fun h => by
      rw [h, isPlain_percent] at hplain
      cases hplain
    rw [if_pos rfl, List.singleton_append, urlDecode]
    exact fun hi lo r h _ => hne h
  | false =>
    rw [if_neg Bool.false_ne_true]
    show (fromHex (toHex (b >>> 4)) * 16 + fromHex (toHex (b % 16))) :: urlDecode rest = _
    rw [(hex_of_byte b).1]

/-- **A name is read back.** -/
theorem urlDecode_urlEncode : ∀ str : Bytes, urlDecode (urlEncode str) = str
  | [] => rfl
  | b :: str => by
    rw [urlEncode, List.flatMap_cons, urlDecode_byte]
    exact congrArg (b :: ·) (urlDecode_urlEncode str)

/-- Only letters, digits, `-_.~/` and the percent sign are written. -/
theorem urlEncode_plain {str : Bytes} {c : UInt8} (hc : c ∈ urlEncode str) : isPlain c = true ∨ c = 37 := by
  obtain ⟨b, -, hb⟩ := List.mem_flatMap.mp hc
  unfold urlEncodeByte at hb
  cases hplain : isPlain b with
  | true =>
    rw [hplain, if_pos rfl, List.mem_singleton] at hb
    exact .inl (hb ▸ hplain)
  | false =>
    rw [hplain, if_neg Bool.false_ne_true] at hb
    obtain ⟨-, hhi, hlo, -⟩ := hex_of_byte b
    simp only [List.mem_cons, List.not_mem_nil, or_false] at hb
    rcases hb with rfl | rfl | rfl
    · exact .inr rfl
    · exact .inl hhi
    · exact .inl hlo

/-- The slash is written for itself only. -/
theorem slash_mem_urlEncode {str : Bytes} : 47 ∈ urlEncode str ↔ 47 ∈ str := by
  constructor
  · intro h
    obtain ⟨b, hmem, hb⟩ := List.mem_flatMap.mp h
    unfold urlEncodeByte at hb
    cases hplain : isPlain b with
    | true =>
      rw [hplain, if_pos rfl, List.mem_singleton] at hb
      exact hb ▸ hmem
    | false =>
      rw [hplain, if_neg Bool.false_ne_true] at hb
      obtain ⟨-, -, -, hhi, hlo⟩ := hex_of_byte b
      simp only [List.mem_cons, List.not_mem_nil, or_false] at hb
      rcases hb with hb | hb | hb
      · exact absurd hb (by decide)
      · exact absurd hb.symm hhi
      · exact absurd hb.symm hlo
  · intro h
    exact List.mem_flatMap.mpr ⟨47, h, by decide⟩

theorem urlEncode_ne_nil {str : Bytes} (h : str ≠ []) : urlEncode str ≠ [] := fun heq =>
  h (by rw [← urlDecode_urlEncode str, heq]; rfl)

/-- A text that is all plain is its own encoding. -/
theorem urlEncode_of_plain {str : Bytes} (h : ∀ b ∈ str, isPlain b = true) : urlEncode str = str := by
  induction str with
  | nil => rfl
  | cons b str ih =>
    rw [urlEncode, List.flatMap_cons, urlEncodeByte, if_pos (h b List.mem_cons_self)]
    exact congrArg (b :: ·) (ih fun x hx => h x (List.mem_cons_of_mem b hx))

/-! ### A path -/

/-- The `while` loop of `EncodePath` on what is behind `pos`. -/
def encodeNames (rest : Bytes) : Bytes :=
  if rest = [] then []
  else
    let tmpStr := rest.takeWhile (· ≠ 47)
    (if tmpStr = [] then [] else urlEncode tmpStr ++ [47]) ++ encodeNames (rest.drop (tmpStr.length + 1))
termination_by rest.length
decreasing_by
  have hpos := List.length_pos_of_ne_nil (by assumption : rest ≠ [])
  rw [List.length_drop]
  omega

/-- `FileUtil::EncodePath`. A slash is put in front where there is none. -/
def encodePath (dstPath : Bytes) : Bytes :=
  if dstPath = [] then []
  else
    let encodeStr := (if dstPath.head? = some 47 then [] else [47]) ++ encodeNames dstPath
    if dstPath.getLast? ≠ some 47 then encodeStr.dropLast else encodeStr

/-- A name, with the slash that `EncodePath` puts behind it. -/
def encodedName (name : Bytes) : Bytes := urlEncode name ++ [47]

/-- The name in front of a slash. -/
theorem takeWhile_name {u : Bytes} (hu : 47 ∉ u) (v : Bytes) : (u ++ 47 :: v).takeWhile (· ≠ 47) = u := by
  have hall : ∀ b ∈ u, decide (b ≠ 47) = true := fun b hb => decide_eq_true fun h => hu (h ▸ hb)
  rw [List.takeWhile_append_of_pos hall]
  simp

/-- What is behind the slash. -/
theorem drop_name (u v : Bytes) : (u ++ 47 :: v).drop (u.length + 1) = v := by
  rw [← List.drop_drop, List.drop_left]
  rfl

theorem encodeNames_step {rest name : Bytes} (hne : rest ≠ []) (hname : rest.takeWhile (· ≠ 47) = name) :
    encodeNames rest = (if name = [] then [] else encodedName name) ++ encodeNames (rest.drop (name.length + 1)) := by
  rw [encodeNames, if_neg hne, hname]
  rfl

theorem encodeNames_eq (rest : Bytes) : encodeNames rest = (tokens 47 rest).flatMap encodedName := by
  induction rest using fields_induction (47 : UInt8) with
  | last u hu =>
    have hall : ∀ b ∈ u, decide (b ≠ 47) = true := fun b hb => decide_eq_true fun h => hu (h ▸ hb)
    rw [tokens_of_not_mem hu]
    by_cases hnil : u = []
    · rw [hnil, encodeNames]
      rfl
    · have hdrop : u.drop (u.length + 1) = [] := List.drop_eq_nil_of_le (Nat.le_succ _)
      rw [encodeNames_step hnil (List.takeWhile_eq_self_iff.mpr hall), hdrop, encodeNames, if_neg hnil, if_neg hnil,
        if_pos rfl, List.append_nil, List.flatMap_singleton]
  | more u v hu ih =>
    rw [encodeNames_step (by simp) (takeWhile_name hu v), drop_name, ih, tokens_append_cons hu]
    by_cases hnil : u = []
    · rw [if_pos hnil, if_pos hnil, List.nil_append]
    · rw [if_neg hnil, if_neg hnil, List.flatMap_cons]

/-- What a path or the path of a URL names. -/
structure ObjectName where
  names : List Bytes
  folder : Bool
  deriving DecidableEq

/-- The name of a path. -/
def pathName (path : Bytes) : ObjectName := ⟨tokens 47 path, path = [] ∨ path.getLast? = some 47⟩

/-- How the path of a URL is read. -/
def urlName (url : Bytes) : ObjectName := ⟨(tokens 47 url).map urlDecode, url = [] ∨ url.getLast? = some 47⟩

/-- The names of a path as `EncodePath` writes them are read back. -/
theorem tokens_encoded {names : List Bytes} (h : ∀ n ∈ names, n ≠ [] ∧ 47 ∉ n) :
    tokens 47 (names.flatMap encodedName) = names.map urlEncode := by
  have hmap : names.flatMap encodedName = (names.map urlEncode).flatMap (· ++ [47]) := by
    rw [List.flatMap_map]
    rfl
  rw [hmap]
  apply tokens_flatMap
  intro g hg
  obtain ⟨n, hn, rfl⟩ := List.mem_map.mp hg
  obtain ⟨hne, hslash⟩ := h n hn
  exact ⟨urlEncode_ne_nil hne, fun hmem => hslash (slash_mem_urlEncode.mp hmem)⟩

/-- The names end with a slash, and with none in front of it. -/
theorem flatMap_encodedName {names : List Bytes} (hne : names ≠ []) (h : ∀ n ∈ names, n ≠ [] ∧ 47 ∉ n) :
    ∃ s, names.flatMap encodedName = s ++ [47] ∧ s ≠ [] ∧ s.getLast? ≠ some 47 := by
  obtain ⟨pre, n, rfl⟩ : ∃ pre n, names = pre ++ [n] :=
    ⟨names.dropLast, names.getLast hne, (List.dropLast_append_getLast hne).symm⟩
  obtain ⟨hn, hslash⟩ := h n (by simp)
  refine ⟨pre.flatMap encodedName ++ urlEncode n, ?_, ?_, ?_⟩
  · simp [encodedName]
  · simp [urlEncode_ne_nil hn]
  · rw [List.getLast?_append_of_ne_nil _ (urlEncode_ne_nil hn)]
    exact fun hlast => hslash (slash_mem_urlEncode.mp (List.mem_of_getLast? hlast))

theorem names_of_path {path n : Bytes} (h : n ∈ tokens 47 path) : n ≠ [] ∧ 47 ∉ n :=
  ⟨(mem_tokens h).1, (mem_tokens h).2.2⟩

/-- A path that does not end with a slash has a name. -/
theorem tokens_ne_nil {path : Bytes} (hne : path ≠ []) (hlast : path.getLast? ≠ some 47) : tokens 47 path ≠ [] := by
  have hget := List.getLast?_eq_getLast_of_ne_nil hne
  have hb : path.getLast hne ≠ 47 := fun h => hlast (by rw [hget, h])
  obtain ⟨u, hu, hmem⟩ := mem_field (List.getLast_mem hne) hb
  exact List.ne_nil_of_mem (List.mem_filter.mpr ⟨hu, decide_eq_true (List.ne_nil_of_mem hmem)⟩)

/-- The slash in front. -/
def leadOf (path : Bytes) : Bytes := if path.head? = some 47 then [] else [47]

theorem encodePath_folder {path : Bytes} (hlast : path.getLast? = some 47) :
    encodePath path = leadOf path ++ (tokens 47 path).flatMap encodedName := by
  have hne : path ≠ [] := fun h => by
    rw [h] at hlast
    cases hlast
  rw [encodePath, if_neg hne, encodeNames_eq, if_neg (not_not.mpr hlast)]
  rfl

theorem encodePath_file {path : Bytes} (hne : path ≠ []) (hlast : path.getLast? ≠ some 47) :
    encodePath path ++ [47] = leadOf path ++ (tokens 47 path).flatMap encodedName := by
  obtain ⟨s, hs, -⟩ := flatMap_encodedName (tokens_ne_nil hne hlast) fun n hn => names_of_path hn
  rw [encodePath, if_neg hne, encodeNames_eq, if_pos hlast, hs, ← List.append_assoc, List.dropLast_concat]
  exact List.append_assoc _ _ _

theorem tokens_leadOf (path s : Bytes) : tokens 47 (leadOf path ++ s) = tokens 47 s := by
  unfold leadOf
  split
  · rfl
  · exact tokens_cons_sep s

/-- The names of an encoded path. -/
theorem tokens_encodePath (path : Bytes) : tokens 47 (encodePath path) = (tokens 47 path).map urlEncode := by
  by_cases hne : path = []
  · rw [hne]
    rfl
  have hencoded : tokens 47 ((tokens 47 path).flatMap encodedName) = (tokens 47 path).map urlEncode :=
    tokens_encoded fun n hn => names_of_path hn
  by_cases hlast : path.getLast? = some 47
  · rw [encodePath_folder hlast, tokens_leadOf, hencoded]
  · rw [← tokens_concat_sep, encodePath_file hne hlast, tokens_leadOf, hencoded]

/-- **The names of a path are read back from its encoding.** -/
theorem encodePath_names (path : Bytes) : (tokens 47 (encodePath path)).map urlDecode = tokens 47 path := by
  rw [tokens_encodePath, List.map_map]
  calc (tokens 47 path).map (urlDecode ∘ urlEncode) = (tokens 47 path).map id :=
        List.map_congr_left fun n _ => urlDecode_urlEncode n
    _ = tokens 47 path := List.map_id _

/-- The end of a path with names is kept. -/
theorem encodePath_last {path : Bytes} (hnames : tokens 47 path ≠ []) :
    (encodePath path).getLast? = some 47 ↔ path.getLast? = some 47 := by
  have hne : path ≠ [] := fun h => hnames (by rw [h, tokens_nil])
  obtain ⟨s, hs, hsne, hslast⟩ := flatMap_encodedName hnames fun n hn => names_of_path hn
  by_cases hlast : path.getLast? = some 47
  · rw [encodePath_folder hlast, hs, ← List.append_assoc, List.getLast?_concat]
    exact iff_of_true rfl hlast
  · have hfile := encodePath_file hne hlast
    rw [hs, ← List.append_assoc] at hfile
    rw [(List.append_inj' hfile rfl).1, List.getLast?_append_of_ne_nil _ hsne]
    exact iff_of_false hslast hlast

/-- **What an encoded path names**, where it names something. -/
theorem urlName_encodePath {path : Bytes} (hnames : tokens 47 path ≠ []) : urlName (encodePath path) = pathName path := by
  have hne : path ≠ [] := fun h => hnames (by rw [h, tokens_nil])
  have hne' : encodePath path ≠ [] := fun h => hnames (by rw [← encodePath_names, h]; rfl)
  unfold urlName pathName
  simp only [encodePath_names, hne, hne', encodePath_last hnames]

/-- Paths of one name that begin alike have one encoding. -/
theorem encodePath_congr {p q : Bytes} (h : pathName p = pathName q) (hp : p ≠ []) (hq : q ≠ [])
    (hlead : leadOf p = leadOf q) : encodePath p = encodePath q := by
  obtain ⟨hnames, hfolder⟩ := ObjectName.mk.inj h
  simp only [hp, hq, false_or, decide_eq_decide] at hfolder
  by_cases hlast : p.getLast? = some 47
  · rw [encodePath_folder hlast, encodePath_folder (hfolder.mp hlast), hlead, hnames]
  · have hlast' : q.getLast? ≠ some 47 := fun h => hlast (hfolder.mpr h)
    have hsame : encodePath p ++ [47] = encodePath q ++ [47] := by
      rw [encodePath_file hp hlast, encodePath_file hq hlast', hlead, hnames]
    exact (List.append_inj' hsame rfl).1

/-- An encoded path has only letters, digits, `-_.~/` and the percent sign. -/
theorem encodePath_plain {path : Bytes} {c : UInt8} (hc : c ∈ encodePath path) : isPlain c = true ∨ c = 37 := by
  have hbody : ∀ x ∈ leadOf path ++ (tokens 47 path).flatMap encodedName, isPlain x = true ∨ x = 37 := by
    intro x hx
    rcases List.mem_append.mp hx with hx | hx
    · unfold leadOf at hx
      split at hx
      · cases hx
      · rw [List.mem_singleton.mp hx]
        exact .inl (by decide)
    · obtain ⟨n, -, hn⟩ := List.mem_flatMap.mp hx
      rcases List.mem_append.mp hn with hn | hn
      · exact urlEncode_plain hn
      · rw [List.mem_singleton.mp hn]
        exact .inl (by decide)
  by_cases hne : path = []
  · rw [hne] at hc
    cases hc
  by_cases hlast : path.getLast? = some 47
  · rw [encodePath_folder hlast] at hc
    exact hbody c hc
  · refine hbody c ?_
    rw [← encodePath_file hne hlast]
    exact List.mem_append_left _ hc

/-! ### The formats of a path -/

/-- The loop of `FormatPath`, where `next` is `last_delimiter_pos + 1`, which wraps to 0 at first. -/
def formatLoop : Bytes → ℕ → ℕ → Bytes
  | [], _, _ => []
  | b :: rest, i, next =>
    if b = 47 ∧ next = i then formatLoop rest (i + 1) (i + 1)
    else if b = 47 ∧ next < i then b :: formatLoop rest (i + 1) (i + 1)
    else b :: formatLoop rest (i + 1) next

/-- `FileUtil::FormatPath`. -/
def formatPath (path : Bytes) : Bytes := if path = [] then path else 47 :: formatLoop path 0 0

/-- `FileUtil::FormatFilePath`. -/
def formatFilePath (path : Bytes) : Bytes :=
  formatPath (if path.getLast? = some 47 then path.dropLast else path)

/-- `FileUtil::FormatFolderPath`. -/
def formatFolderPath (path : Bytes) : Bytes :=
  formatPath (if path ≠ [] ∧ path.getLast? ≠ some 47 then path ++ [47] else path)

/-- The names stay; `u` is what there is of the one that is being copied. -/
theorem tokens_formatLoop : ∀ (rest : Bytes) (i next : ℕ) (u : Bytes), next ≤ i → 47 ∉ u → (u = [] ↔ next = i) →
    tokens 47 (u ++ formatLoop rest i next) = tokens 47 (u ++ rest)
  | [], _, _, _, _, _, _ => rfl
  | b :: rest, i, next, u, hle, hu, hnil => by
    have hstart := tokens_formatLoop rest (i + 1) (i + 1) [] (Nat.le_refl _) List.not_mem_nil (iff_of_true rfl rfl)
    rw [List.nil_append, List.nil_append] at hstart
    by_cases hb : b = 47
    · by_cases hi : next = i
      · rw [formatLoop, if_pos ⟨hb, hi⟩, hnil.mpr hi, hb, List.nil_append, List.nil_append, hstart, tokens_cons_sep]
      · rw [formatLoop, if_neg fun h => hi h.2, if_pos ⟨hb, by omega⟩, hb, tokens_append_sep, tokens_append_sep, hstart]
    · have hu' : 47 ∉ u ++ [b] := by
        rw [List.mem_append, List.mem_singleton]
        rintro (h | h)
        · exact hu h
        · exact hb h.symm
      have ih := tokens_formatLoop rest (i + 1) next (u ++ [b]) (by omega) hu'
        (iff_of_false (by simp) (by omega))
      rw [List.append_assoc, List.append_assoc, List.singleton_append, List.singleton_append] at ih
      rw [formatLoop, if_neg fun h => hb h.1, if_neg fun h => hb h.1]
      exact ih

/-- The end stays; `out` is what is copied so far. -/
theorem last_formatLoop : ∀ (rest : Bytes) (i next : ℕ) (out : Bytes), next ≤ i →
    (out.getLast? = some 47 ↔ next = i) →
    ((out ++ formatLoop rest i next).getLast? = some 47 ↔ (out ++ rest).getLast? = some 47)
  | [], _, _, _, _, _ => Iff.rfl
  | b :: rest, i, next, out, hle, hlast => by
    have hassoc : out ++ b :: rest = (out ++ [b]) ++ rest := by rw [List.append_assoc, List.singleton_append]
    by_cases hb : b = 47
    · have hcopied := last_formatLoop rest (i + 1) (i + 1) (out ++ [b]) (Nat.le_refl _)
        (iff_of_true (by rw [hb, List.getLast?_concat]) rfl)
      by_cases hi : next = i
      · have ih := last_formatLoop rest (i + 1) (i + 1) out (Nat.le_refl _) (iff_of_true (hlast.mpr hi) rfl)
        rw [formatLoop, if_pos ⟨hb, hi⟩, ih, hassoc]
        by_cases hrest : rest = []
        · rw [hrest, List.append_nil, List.append_nil, hb, List.getLast?_concat]
          exact iff_of_true (hlast.mpr hi) rfl
        · rw [List.getLast?_append_of_ne_nil _ hrest, List.getLast?_append_of_ne_nil _ hrest]
      · rw [formatLoop, if_neg fun h => hi h.2, if_pos ⟨hb, by omega⟩, hassoc, ← hcopied, List.append_assoc]
        rfl
    · have ih := last_formatLoop rest (i + 1) next (out ++ [b]) (by omega)
        (iff_of_false (by rw [List.getLast?_concat]; exact fun h => hb (Option.some.inj h)) (by omega))
      rw [formatLoop, if_neg fun h => hb h.1, if_neg fun h => hb h.1, hassoc, ← ih, List.append_assoc]
      rfl

theorem formatLoop_subset : ∀ (rest : Bytes) (i next : ℕ), formatLoop rest i next ⊆ rest
  | [], _, _ => fun _ h => h
  | b :: rest, i, next => by
    intro x hx
    rw [formatLoop] at hx
    split at hx
    · exact List.mem_cons_of_mem b (formatLoop_subset rest _ _ hx)
    · split at hx
      · rcases List.mem_cons.mp hx with rfl | hx
        · exact List.mem_cons_self
        · exact List.mem_cons_of_mem b (formatLoop_subset rest _ _ hx)
      · rcases List.mem_cons.mp hx with rfl | hx
        · exact List.mem_cons_self
        · exact List.mem_cons_of_mem b (formatLoop_subset rest _ _ hx)

/-- **A path keeps its name when it is formatted.** -/
theorem formatPath_name (path : Bytes) : pathName (formatPath path) = pathName path := by
  by_cases hne : path = []
  · rw [hne]
    rfl
  have hnames := tokens_formatLoop path 0 0 [] (Nat.le_refl 0) List.not_mem_nil (iff_of_true rfl rfl)
  have hlast := last_formatLoop path 0 0 [47] (Nat.le_refl 0) (iff_of_true rfl rfl)
  have hformat : formatPath path = [47] ++ formatLoop path 0 0 := if_neg hne
  rw [List.getLast?_append_of_ne_nil _ hne] at hlast
  unfold pathName
  rw [hformat, List.singleton_append, tokens_cons_sep]
  rw [List.nil_append, List.nil_append] at hnames
  rw [List.singleton_append] at hlast
  simp only [hnames, hlast, hne, List.cons_ne_nil]

theorem nul_not_mem_formatPath {path : Bytes} (h : chNul ∉ path) : chNul ∉ formatPath path := by
  unfold formatPath
  split
  · exact h
  · rw [List.mem_cons]
    rintro (hnul | hmem)
    · exact absurd hnul (by decide)
    · exact h (formatLoop_subset path 0 0 hmem)

/-! ### The folders that are legal -/

/-- `reserve_char` of `isValidFolderName`. -/
def reserveChar : Bytes := [47, 63, 42, 58, 124, 92, 60, 62, 34]

/-- `FileUtil::isValidFolderName`. -/
def isValidFolderName (foldername : Bytes) : Bool :=
  if foldername.length = 0 then false
  else if foldername.all (· = 32) then false
  else !reserveChar.any (· ∈ foldername)

/-- The loop of `isLegalFolderPath` on what is behind `index`. -/
def legalLoop (rest : Bytes) : Bool :=
  if rest = [] then true
  else
    let foldername := rest.takeWhile (· ≠ 47)
    if foldername.length = rest.length then true
    else if foldername = [] then false
    else if !isValidFolderName foldername then false
    else legalLoop (rest.drop (foldername.length + 1))
termination_by rest.length
decreasing_by
  have hpos := List.length_pos_of_ne_nil (by assumption : rest ≠ [])
  rw [List.length_drop]
  omega

/-- `FileUtil::isLegalFolderPath`. -/
def isLegalFolderPath (path : Bytes) : Bool :=
  if path.head? ≠ some 47 ∨ path.getLast? ≠ some 47 then false else legalLoop path.tail

/-- The path of a folder. -/
def folderPath (names : List Bytes) : Bytes := 47 :: names.flatMap (· ++ [47])

/-- A folder ends with a slash. -/
theorem folders_last (names : List Bytes) :
    names.flatMap (· ++ [47]) = [] ∨ (names.flatMap (· ++ [47])).getLast? = some 47 := by
  rcases List.eq_nil_or_concat names with rfl | ⟨pre, n, rfl⟩
  · exact .inl rfl
  · right
    rw [List.concat_eq_append, List.flatMap_append, List.flatMap_singleton, ← List.append_assoc, List.getLast?_concat]

theorem folderPath_last (names : List Bytes) : (folderPath names).getLast? = some 47 := by
  unfold folderPath
  rcases folders_last names with hnil | hlast
  · rw [hnil]
    rfl
  · rw [List.getLast?_cons, hlast]
    rfl

theorem validName_ne_nil {n : Bytes} (h : isValidFolderName n = true) : n ≠ [] := by
  rintro rfl
  cases h

theorem validName_slash {n : Bytes} (h : isValidFolderName n = true) : 47 ∉ n := by
  intro hmem
  unfold isValidFolderName at h
  have hany : reserveChar.any (· ∈ n) = true := List.any_eq_true.mpr ⟨47, by decide, decide_eq_true hmem⟩
  rw [hany] at h
  split at h
  · cases h
  · split at h
    · cases h
    · cases h

theorem legalLoop_step {name rest : Bytes} (hname : 47 ∉ name) :
    legalLoop (name ++ 47 :: rest) = (isValidFolderName name && legalLoop rest) := by
  have hlen : name.length ≠ (name ++ 47 :: rest).length := by simp
  rw [legalLoop, if_neg (by simp)]
  dsimp only
  rw [takeWhile_name hname, if_neg hlen, drop_name]
  by_cases hnil : name = []
  · rw [if_pos hnil, hnil]
    rfl
  · rw [if_neg hnil]
    cases isValidFolderName name with
    | true => rfl
    | false => rfl

/-- What ends with a slash is legal if its names are. -/
theorem legalLoop_iff (rest : Bytes) (hlast : rest = [] ∨ rest.getLast? = some 47) :
    legalLoop rest = true ↔
      ∃ names : List Bytes, (∀ n ∈ names, isValidFolderName n = true) ∧ rest = names.flatMap (· ++ [47]) := by
  induction rest using fields_induction (47 : UInt8) with
  | last u hu =>
    rcases hlast with rfl | hlast
    · rw [legalLoop, if_pos rfl]
      exact iff_of_true rfl ⟨[], fun _ h => absurd h List.not_mem_nil, rfl⟩
    · exact absurd (List.mem_of_getLast? hlast) hu
  | more u v hu ih =>
    have hlast' : v = [] ∨ v.getLast? = some 47 := by
      by_cases hv : v = []
      · exact .inl hv
      · rw [List.getLast?_append_of_ne_nil _ (List.cons_ne_nil _ _), ← List.singleton_append,
          List.getLast?_append_of_ne_nil _ hv] at hlast
        exact .inr (hlast.resolve_left (by simp))
    rw [legalLoop_step hu, Bool.and_eq_true, ih hlast']
    constructor
    · rintro ⟨hvalid, names, hnames, rfl⟩
      refine ⟨u :: names, ?_, by simp⟩
      intro n hn
      rcases List.mem_cons.mp hn with rfl | hn
      · exact hvalid
      · exact hnames n hn
    · rintro ⟨names, hnames, heq⟩
      cases names with
      | nil => simp at heq
      | cons n names =>
        have hn := hnames n List.mem_cons_self
        rw [List.flatMap_cons, List.append_assoc, List.singleton_append] at heq
        have hsplit := congrArg (List.splitOn 47) heq
        rw [List.splitOn_append_cons_self_of_not_mem hu,
          List.splitOn_append_cons_self_of_not_mem (validName_slash hn)] at hsplit
        obtain rfl : u = n := (List.cons.inj hsplit).1
        have hrest := (List.cons.inj (List.append_cancel_left heq)).2
        exact ⟨hn, names, fun x hx => hnames x (List.mem_cons_of_mem u hx), hrest⟩

/-- The folders that are legal: a slash, and names that are valid with a slash behind each. -/
theorem isLegalFolderPath_iff (path : Bytes) : isLegalFolderPath path = true ↔
    ∃ names : List Bytes, (∀ n ∈ names, isValidFolderName n = true) ∧ path = folderPath names := by
  unfold isLegalFolderPath
  cases path with
  | nil =>
    rw [if_pos (by simp)]
    exact iff_of_false Bool.false_ne_true (by rintro ⟨names, -, h⟩; cases h)
  | cons b rest =>
    by_cases hlegal : b = 47 ∧ (rest = [] ∨ rest.getLast? = some 47)
    · obtain ⟨rfl, hlast⟩ := hlegal
      have hends : (47 :: rest).getLast? = some 47 := by
        rcases hlast with rfl | hlast
        · rfl
        · rw [List.getLast?_cons, hlast]
          rfl
      rw [if_neg (by simp [hends]), List.tail_cons, legalLoop_iff rest hlast]
      unfold folderPath
      simp only [List.cons.injEq, true_and]
    · have hnot : (b :: rest).head? ≠ some 47 ∨ (b :: rest).getLast? ≠ some 47 := by
        by_cases hb : b = 47
        · refine .inr fun hends => hlegal ⟨hb, ?_⟩
          by_cases hrest : rest = []
          · exact .inl hrest
          · rw [← List.singleton_append, List.getLast?_append_of_ne_nil _ hrest] at hends
            exact .inr hends
        · exact .inl fun h => hb (Option.some.inj h)
      rw [if_pos hnot]
      refine iff_of_false Bool.false_ne_true ?_
      rintro ⟨names, hnames, heq⟩
      obtain ⟨rfl, rfl⟩ := List.cons.inj heq
      exact hlegal ⟨rfl, folders_last names⟩

theorem tokens_folderPath {names : List Bytes} (h : ∀ n ∈ names, isValidFolderName n = true) :
    tokens 47 (folderPath names) = names := by
  rw [folderPath, tokens_cons_sep]
  exact tokens_flatMap fun n hn => ⟨validName_ne_nil (h n hn), validName_slash (h n hn)⟩

/-! ### The URLs -/

/-- What `snprintf` leaves of a text in a buffer of `size` bytes. -/
def snprintf (size : ℕ) (s : Bytes) : Bytes := s.take (size - 1)

/-- What `GetEncodedCosUrl` prints. -/
def cosUrlText (bucketName dstPath : Bytes) (appid : ℕ) : Bytes :=
  47 :: (ulongText appid ++ 47 :: cstr bucketName ++ 47 :: cstr dstPath)

/-- `HttpUtil::GetEncodedCosUrl`, where `endpoint` is the domain for uploads, which ends with a slash. -/
def getEncodedCosUrl (endpoint bucketName dstPath : Bytes) (appid : ℕ) : Bytes :=
  endpoint ++ encodePath (snprintf 10240 (cosUrlText bucketName dstPath appid))

/-- What `GetEncodedDownloadCosUrl` prints. -/
def downloadUrlText (appid : ℕ) (bucketName dstPath domain : Bytes) : Bytes :=
  cstr bucketName ++ 45 :: (ulongText appid ++ 46 :: cstr domain) ++ 47 :: cstr dstPath

/-- `HttpUtil::GetEncodedDownloadCosUrl`. -/
def getEncodedDownloadCosUrl (appid : ℕ) (bucketName dstPath domain sign : Bytes) : Bytes :=
  text "http:/" ++ encodePath (snprintf 10240 (downloadUrlText appid bucketName dstPath domain)) ++
    text "?sign=" ++ sign

/-- The `file_id` that `Auth::AppSignOnce` signs. -/
def appSignOnceFileId (appid : ℕ) (path bucketName : Bytes) : Bytes :=
  snprintf 2048 (47 :: (ulongText appid ++ 47 :: cstr bucketName ++ cstr (47 :: encodePath path)))

/-- `BaseOp::delBase`: the URL, and the `file_id` of the signature that goes with it. -/
def delBase (appid : ℕ) (endpoint bucket path : Bytes) : Bytes × Bytes :=
  (getEncodedCosUrl endpoint bucket path appid, appSignOnceFileId appid (formatPath path) bucket)

/-- The account that all requests are for. -/
structure CosConf where
  appid : ℕ
  bucket : Bytes
  uploadDomain : Bytes
  downloadDomain : Bytes

/-- `StringUtil::Trim`. -/
def trim (s : Bytes) : Bytes := (s.dropWhile (· = 32)).rdropWhile (· = 32)

/-- The requests the server makes. -/
inductive CosOp where
  | fileStat | fileDelete | fileUpload | fileDownload
  | folderCreate | folderStat | folderList | folderDelete
  deriving DecidableEq

/-- The requests for a folder. -/
def CosOp.folder : CosOp → Bool
  | .folderCreate | .folderStat | .folderList | .folderDelete => true
  | _ => false

/-- The path that a request keeps. Only `FileDownloadReq` trims it. -/
def CosOp.kept : CosOp → Bytes → Bytes
  | .fileDownload, path => trim path
  | _, path => path

/-- Whether `isParaValid` lets a path through. Of the requests for files, only uploads look at it. -/
def CosOp.isParaValid : CosOp → Bytes → Bool
  | .fileDownload, path => Sdk.isParaValid (trim path)
  | .fileStat, path | .fileDelete, path => ReqBase.isLegalFilePath path
  | .fileUpload, path => isLegalFilePath path
  | .folderCreate, path | .folderStat, path | .folderList, path | .folderDelete, path => isLegalFolderPath path

/-- The path the URL of a request is made of. -/
def CosOp.path : CosOp → Bytes → Bytes
  | .fileStat, path => formatFilePath path
  | .folderCreate, path => formatFolderPath path
  | op, path => op.kept path

/-- What is printed for the URL of a request. -/
def CosOp.urlText (op : CosOp) (c : CosConf) (path : Bytes) : Bytes :=
  if op = .fileDownload then downloadUrlText c.appid c.bucket (op.path path) c.downloadDomain
  else cosUrlText c.bucket (op.path path) c.appid

/-- The URL of a request, which is sent where `isParaValid` lets its path through. -/
def CosOp.url (op : CosOp) (c : CosConf) (sign path : Bytes) : Bytes :=
  if op = .fileDownload then getEncodedDownloadCosUrl c.appid c.bucket (op.path path) c.downloadDomain sign
  else getEncodedCosUrl c.uploadDomain c.bucket (op.path path) c.appid

/-- The part of the URL that names the object, with the account in front. -/
def CosOp.urlPath (op : CosOp) (c : CosConf) (path : Bytes) : Bytes :=
  encodePath (snprintf 10240 (op.urlText c path))

/-- The account in front of the names. -/
def CosOp.root (op : CosOp) (c : CosConf) : List Bytes :=
  if op = .fileDownload then tokens 47 (cstr c.bucket ++ 45 :: (ulongText c.appid ++ 46 :: cstr c.downloadDomain))
  else tokens 47 (ulongText c.appid ++ 47 :: cstr c.bucket)

theorem snprintf_of_lt {size : ℕ} {s : Bytes} (h : s.length < size) : snprintf size s = s :=
  List.take_of_length_le (by omega)

theorem pathName_concat (root path : Bytes) :
    pathName (root ++ 47 :: path) = ⟨tokens 47 root ++ tokens 47 path, (pathName path).folder⟩ := by
  unfold pathName
  rw [tokens_append_sep]
  congr 1
  rw [decide_eq_decide]
  by_cases hpath : path = []
  · rw [hpath, List.getLast?_concat]
    exact iff_of_true (.inr rfl) (.inl rfl)
  · rw [List.append_cons, List.getLast?_append_of_ne_nil _ hpath]
    simp [hpath]

theorem tokens_of_mem {s : Bytes} {b : UInt8} (hb : b ∈ s) (hne : b ≠ 47) : tokens 47 s ≠ [] := by
  obtain ⟨u, hu, hmem⟩ := mem_field hb hne
  exact List.ne_nil_of_mem (List.mem_filter.mpr ⟨hu, decide_eq_true (List.ne_nil_of_mem hmem)⟩)

/-! ### What a request is for -/

section

variable {c : CosConf} {op : CosOp} {p : Bytes}

/-- What `Trim` leaves of a path in COS, and the spaces it takes off. -/
theorem trim_parts (hslash : p.head? = some 47) :
    ∃ spaces, p = trim p ++ spaces ∧ (trim p).head? = some 47 ∧ (spaces = [] ↔ p.getLast? ≠ some 32) := by
  obtain ⟨rest, rfl⟩ : ∃ rest, p = 47 :: rest := ⟨p.tail, List.eq_cons_of_mem_head? hslash⟩
  have hdrop : (47 :: rest).dropWhile (· = (32 : UInt8)) = 47 :: rest := List.dropWhile_cons_of_neg (by simp)
  have htrim : trim (47 :: rest) = (47 :: rest).rdropWhile (· = 32) := by
    unfold trim
    rw [hdrop]
  have hparts : (47 :: rest).rdropWhile (· = 32) ++ (47 :: rest).rtakeWhile (· = (32 : UInt8)) = 47 :: rest :=
    List.rdropWhile_append_rtakeWhile
  have hne : trim (47 :: rest) ≠ [] := by
    rw [htrim, ne_eq, List.rdropWhile_eq_nil_iff]
    exact fun hall => absurd (hall 47 List.mem_cons_self) (by decide)
  rw [← htrim] at hparts
  refine ⟨_, hparts.symm, ?_, ?_⟩
  · have hhead := congrArg List.head? hparts
    rwa [List.head?_append_of_ne_nil _ hne] at hhead
  · rw [List.rtakeWhile_eq_nil_iff, List.getLast?_eq_getLast_of_ne_nil (List.cons_ne_nil 47 rest)]
    simp

theorem mem_trim {b : UInt8} (h : b ∈ trim p) : b ∈ p :=
  (List.dropWhile_sublist _).subset ((List.rdropWhile_prefix _ _).subset h)

theorem nul_not_mem_path (op : CosOp) (hnul : chNul ∉ p) : chNul ∉ op.path p := by
  cases op with
  | fileStat =>
    refine nul_not_mem_formatPath ?_
    split
    · exact fun h => hnul (List.dropLast_subset p h)
    · exact hnul
  | folderCreate =>
    refine nul_not_mem_formatPath ?_
    split
    · rw [List.mem_append, List.mem_singleton]
      rintro (h | h)
      · exact hnul h
      · exact absurd h (by decide)
    · exact hnul
  | fileDownload => exact fun h => hnul (mem_trim h)
  | fileDelete => exact hnul
  | fileUpload => exact hnul
  | folderStat => exact hnul
  | folderList => exact hnul
  | folderDelete => exact hnul

theorem last_of_legalFolder (h : isLegalFolderPath p = true) : p.getLast? = some 47 := by
  unfold isLegalFolderPath at h
  split at h
  · cases h
  · exact not_not.mp fun hlast => (by assumption : ¬ (_ ∨ _)) (.inr hlast)

/-- The name of a path that ends with a slash is a folder's, as is the empty one. -/
def endsAsFolder (path : Bytes) : Bool := path = [] ∨ path.getLast? = some 47

/-- Whether a request that is sent is for a folder. A request for a file but an upload is so where its path is
a folder's, of which `FileStatReq` takes one slash off. -/
def CosOp.asFolder : CosOp → Bytes → Bool
  | .folderCreate, _ | .folderStat, _ | .folderList, _ | .folderDelete, _ => true
  | .fileUpload, _ => false
  | .fileStat, path => endsAsFolder (if path.getLast? = some 47 then path.dropLast else path)
  | op, path => endsAsFolder (op.kept path)

/-- What a request names by its path. -/
def CosOp.name (op : CosOp) (path : Bytes) : ObjectName := ⟨tokens 47 (op.kept path), op.asFolder path⟩

theorem pathName_folder_of_legal (h : isLegalFolderPath p = true) : pathName p = ⟨tokens 47 p, true⟩ :=
  ObjectName.mk.injEq _ _ _ _ ▸ ⟨rfl, decide_eq_true (.inr (last_of_legalFolder h))⟩

/-- The formats keep the name of a path that the request lets through. -/
theorem pathName_path (hvalid : op.isParaValid p = true) : pathName (op.path p) = op.name p := by
  cases op with
  | fileStat =>
    have hpath : CosOp.path .fileStat p = formatPath (if p.getLast? = some 47 then p.dropLast else p) := rfl
    rw [hpath, formatPath_name]
    refine ObjectName.mk.injEq _ _ _ _ ▸ ⟨?_, rfl⟩
    show tokens 47 _ = tokens 47 p
    split
    · next hlast =>
      have hsplit : p = p.dropLast ++ [47] := (List.dropLast_append_getLast? 47 hlast).symm
      rw [hsplit, List.dropLast_concat, tokens_concat_sep]
    · rfl
  | folderCreate =>
    have hlast := last_of_legalFolder hvalid
    have hpath : CosOp.path .folderCreate p = formatPath p := by
      show formatPath _ = _
      rw [if_neg fun h => h.2 hlast]
    rw [hpath, formatPath_name]
    exact pathName_folder_of_legal hvalid
  | fileUpload =>
    obtain ⟨hhead, hlast⟩ := of_decide_eq_true hvalid
    refine ObjectName.mk.injEq _ _ _ _ ▸ ⟨rfl, decide_eq_false ?_⟩
    rintro (hnil | hslash)
    · rw [show p = [] from hnil] at hhead
      cases hhead
    · exact hlast hslash
  | fileDownload => rfl
  | fileDelete => rfl
  | folderStat => exact pathName_folder_of_legal hvalid
  | folderList => exact pathName_folder_of_legal hvalid
  | folderDelete => exact pathName_folder_of_legal hvalid

theorem root_ne_nil (op : CosOp) (c : CosConf) : op.root c ≠ [] := by
  unfold CosOp.root
  split
  · exact tokens_of_mem (b := 45) (by simp) (by decide)
  · obtain ⟨d, hd⟩ := List.exists_mem_of_ne_nil _ (ulongText_ne_nil c.appid)
    refine tokens_of_mem (b := d) (List.mem_append_left _ hd) ?_
    have hdigit := isdigit_of_mem_ulongText hd
    rintro rfl
    cases hdigit

/-- The account, and the path behind it. -/
theorem pathName_urlText (op : CosOp) (c : CosConf) (hnul : chNul ∉ p) : pathName (op.urlText c p) =
    ⟨op.root c ++ tokens 47 (op.path p), (pathName (op.path p)).folder⟩ := by
  have hcstr := cstr_eq_self (nul_not_mem_path op hnul)
  unfold CosOp.urlText CosOp.root
  split
  · rw [downloadUrlText, hcstr, pathName_concat]
  · rw [cosUrlText, hcstr, ← List.cons_append, pathName_concat, tokens_cons_sep]

/-- **The URL of a request is read back** as the account and what the path of the request names. -/
theorem urlName_urlPath (hnul : chNul ∉ p) (hvalid : op.isParaValid p = true)
    (hfits : (op.urlText c p).length < 10240) :
    urlName (op.urlPath c p) = ⟨op.root c ++ (op.name p).names, (op.name p).folder⟩ := by
  have htext := pathName_urlText op c hnul
  have hnames : tokens 47 (op.urlText c p) ≠ [] := by
    have hroot := congrArg ObjectName.names htext
    intro hnil
    rw [show (pathName (op.urlText c p)).names = [] from hnil] at hroot
    exact root_ne_nil op c (List.append_eq_nil_iff.mp hroot.symm).1
  unfold CosOp.urlPath
  rw [snprintf_of_lt hfits, urlName_encodePath hnames, htext, ← pathName_path hvalid]
  rfl

/-- What the URL of a request names below the account. -/
def CosOp.object (op : CosOp) (c : CosConf) (p : Bytes) : ObjectName :=
  ⟨(urlName (op.urlPath c p)).names.drop (op.root c).length, (urlName (op.urlPath c p)).folder⟩

theorem object_eq (hnul : chNul ∉ p) (hvalid : op.isParaValid p = true) (hfits : (op.urlText c p).length < 10240) :
    op.object c p = op.name p := by
  unfold CosOp.object
  rw [urlName_urlPath hnul hvalid hfits, List.drop_left]

theorem leadOf_append {root : Bytes} (hroot : root ≠ []) (s : Bytes) : leadOf (root ++ s) = leadOf root := by
  unfold leadOf
  rw [List.head?_append_of_ne_nil _ hroot]

/-- Requests of one kind for paths of one name have one URL. -/
theorem url_congr {op' : CosOp} {q : Bytes} (sign : Bytes) (hp : chNul ∉ p) (hq : chNul ∉ q)
    (hkind : op = .fileDownload ↔ op' = .fileDownload) (hfits : (op.urlText c p).length < 10240)
    (hfits' : (op'.urlText c q).length < 10240) (hname : pathName (op.path p) = pathName (op'.path q)) :
    op.url c sign p = op'.url c sign q := by
  have htext := pathName_urlText op c hp
  have htext' := pathName_urlText op' c hq
  have hroot : op.root c = op'.root c := by simp only [CosOp.root, hkind]
  have hnames : tokens 47 (op.path p) = tokens 47 (op'.path q) := congrArg ObjectName.names hname
  rw [hname, hroot, hnames, ← htext'] at htext
  have hencode : ∀ root s t : Bytes, root ≠ [] → op.urlText c p = root ++ s → op'.urlText c q = root ++ t →
      encodePath (op.urlText c p) = encodePath (op'.urlText c q) := by
    intro root s t hne hs ht
    refine encodePath_congr htext ?_ ?_ ?_
    · simp [hs, hne]
    · simp [ht, hne]
    · rw [hs, ht, leadOf_append hne, leadOf_append hne]
  by_cases hdown : op = .fileDownload
  · have hdown' := hkind.mp hdown
    have hsame := hencode (cstr c.bucket ++ 45 :: (ulongText c.appid ++ 46 :: cstr c.downloadDomain)) _ _ (by simp)
      (if_pos hdown) (if_pos hdown')
    unfold CosOp.url getEncodedDownloadCosUrl
    rw [if_pos hdown, if_pos hdown']
    rw [CosOp.urlText, if_pos hdown] at hfits hsame
    rw [CosOp.urlText, if_pos hdown'] at hfits' hsame
    rw [snprintf_of_lt hfits, snprintf_of_lt hfits', hsame]
  · have hdown' : op' ≠ .fileDownload := fun h => hdown (hkind.mpr h)
    have hsame := hencode (47 :: (ulongText c.appid ++ 47 :: cstr c.bucket)) (47 :: cstr (op.path p))
      (47 :: cstr (op'.path q)) (List.cons_ne_nil _ _)
      ((if_neg hdown).trans (by simp [cosUrlText])) ((if_neg hdown').trans (by simp [cosUrlText]))
    unfold CosOp.url getEncodedCosUrl
    rw [if_neg hdown, if_neg hdown']
    rw [CosOp.urlText, if_neg hdown] at hfits hsame
    rw [CosOp.urlText, if_neg hdown'] at hfits' hsame
    rw [snprintf_of_lt hfits, snprintf_of_lt hfits', hsame]

/-- The part of the URL that names the object can be told from the URL. -/
theorem urlPath_of_url {op' : CosOp} {q : Bytes} {sign : Bytes} (hkind : op = .fileDownload ↔ op' = .fileDownload)
    (h : op.url c sign p = op'.url c sign q) : op.urlPath c p = op'.urlPath c q := by
  unfold CosOp.urlPath CosOp.urlText
  by_cases hdown : op = .fileDownload
  · have hdown' := hkind.mp hdown
    unfold CosOp.url getEncodedDownloadCosUrl at h
    rw [if_pos hdown, if_pos hdown'] at h
    rw [if_pos hdown, if_pos hdown']
    exact List.append_cancel_left (List.append_cancel_right (List.append_cancel_right h))
  · have hdown' : op' ≠ .fileDownload := fun h => hdown (hkind.mpr h)
    unfold CosOp.url getEncodedCosUrl at h
    rw [if_neg hdown, if_neg hdown'] at h
    rw [if_neg hdown, if_neg hdown']
    exact List.append_cancel_left h

end

/-- An account. -/
def smallConf : CosConf := ⟨7, [98], [117, 47], [100]⟩

/-- Names that are written for themselves, in front of a path. -/
theorem encodePath_root {a b p : Bytes} (ha : a ≠ [] ∧ ∀ x ∈ a, isPlain x = true ∧ x ≠ 47)
    (hb : b ≠ [] ∧ ∀ x ∈ b, isPlain x = true ∧ x ≠ 47) :
    encodePath (47 :: (a ++ 47 :: b ++ 47 :: p)) = a ++ 47 :: b ++ 47 :: encodePath (formatPath p) := by
  have hname : ∀ s : Bytes, (s ≠ [] ∧ ∀ x ∈ s, isPlain x = true ∧ x ≠ 47) →
      tokens 47 s = [s] ∧ encodedName s = s ++ [47] := by
    intro s ⟨hne, hall⟩
    refine ⟨?_, ?_⟩
    · rw [tokens_of_not_mem fun h => (hall 47 h).2 rfl, if_neg hne]
    · rw [encodedName, urlEncode_of_plain fun x hx => (hall x hx).1]
  obtain ⟨hta, hea⟩ := hname a ha
  obtain ⟨htb, heb⟩ := hname b hb
  have htokens : tokens 47 (47 :: (a ++ 47 :: b ++ 47 :: p)) = a :: b :: tokens 47 p := by
    rw [tokens_cons_sep, tokens_append_sep, tokens_append_sep, hta, htb]
    rfl
  have hbody : (tokens 47 (47 :: (a ++ 47 :: b ++ 47 :: p))).flatMap encodedName =
      a ++ 47 :: b ++ 47 :: (tokens 47 p).flatMap encodedName := by
    rw [htokens, List.flatMap_cons, List.flatMap_cons, hea, heb]
    simp
  have hlead : leadOf (47 :: (a ++ 47 :: b ++ 47 :: p)) = [] := rfl
  have hnames : tokens 47 (formatPath p) = tokens 47 p := congrArg ObjectName.names (formatPath_name p)
  by_cases hp : p = []
  · have hlast : (47 :: (a ++ 47 :: b ++ 47 :: p)).getLast? = some 47 := by
      rw [hp, ← List.cons_append, List.getLast?_concat]
    rw [encodePath_folder hlast, hbody, hlead, hp, tokens_nil]
    rfl
  have hkeeps : (47 :: (a ++ 47 :: b ++ 47 :: p)).getLast? = p.getLast? := by
    have happ : 47 :: (a ++ 47 :: b ++ 47 :: p) = (47 :: (a ++ 47 :: b ++ [47])) ++ p := by simp
    rw [happ, List.getLast?_append_of_ne_nil _ hp]
  have hformat : formatPath p = 47 :: formatLoop p 0 0 := if_neg hp
  have hlead' : leadOf (formatPath p) = [] := by
    rw [hformat]
    rfl
  have hne' : formatPath p ≠ [] := by
    rw [hformat]
    exact List.cons_ne_nil _ _
  have hends := congrArg ObjectName.folder (formatPath_name p)
  have hlast' : (formatPath p).getLast? = some 47 ↔ p.getLast? = some 47 := by
    unfold pathName at hends
    simpa [hp, hne'] using hends
  by_cases hlast : p.getLast? = some 47
  · rw [encodePath_folder (hkeeps.trans hlast), encodePath_folder (hlast'.mpr hlast), hbody, hlead, hlead', hnames]
    rfl
  · have hfile := encodePath_file (List.cons_ne_nil 47 (a ++ 47 :: b ++ 47 :: p)) (by rw [hkeeps]; exact hlast)
    have hfile' := encodePath_file hne' (fun h => hlast (hlast'.mp h))
    rw [hlead', hnames, List.nil_append] at hfile'
    rw [hbody, hlead, ← hfile', List.nil_append] at hfile
    refine (List.append_inj' (hfile.trans ?_) rfl).1
    simp

/-- A bucket has a name that a URL has as it is. -/
structure IsBucket (bucket : Bytes) : Prop where
  ne_nil : bucket ≠ []
  plain : ∀ b ∈ bucket, isPlain b = true ∧ b ≠ 47

theorem nul_not_plain : isPlain chNul = false := by decide

theorem plain_of_ulongText (n : ℕ) : ulongText n ≠ [] ∧ ∀ b ∈ ulongText n, isPlain b = true ∧ b ≠ 47 := by
  refine ⟨ulongText_ne_nil n, fun b hb => ?_⟩
  have hdigit := isdigit_of_mem_ulongText hb
  refine ⟨?_, ?_⟩
  · simp [isPlain, isalnum, hdigit]
  · rintro rfl
    cases hdigit

/-- **A request to delete signs the URL it is sent to** exactly if the path of the URL has less than 2047 bytes;
of a longer one, it signs the first 2046. -/
theorem delete_signs_its_url (appid : ℕ) (endpoint bucket path : Bytes) (hbucket : IsBucket bucket)
    (hnul : chNul ∉ path) (hfits : (cosUrlText bucket path appid).length < 10240) :
    ∃ urlPath, (delBase appid endpoint bucket path).1 = endpoint ++ urlPath ∧
      urlPath = encodePath (cosUrlText bucket path appid) ∧
      (delBase appid endpoint bucket path).2 = 47 :: urlPath.take 2046 ∧
      ((delBase appid endpoint bucket path).2 = 47 :: urlPath ↔ urlPath.length < 2047) := by
  have hbucketNul : chNul ∉ bucket := fun h => by
    have hplain := (hbucket.plain _ h).1
    rw [nul_not_plain] at hplain
    cases hplain
  have hencodedNul : chNul ∉ 47 :: encodePath (formatPath path) := by
    rw [List.mem_cons]
    rintro (h | h)
    · exact absurd h (by decide)
    · rcases encodePath_plain h with hplain | h
      · rw [nul_not_plain] at hplain
        cases hplain
      · exact absurd h (by decide)
  have hroot := encodePath_root (p := path) (plain_of_ulongText appid) ⟨hbucket.ne_nil, hbucket.plain⟩
  have hfileId : (delBase appid endpoint bucket path).2 =
      snprintf 2048 (47 :: encodePath (cosUrlText bucket path appid)) := by
    unfold delBase appSignOnceFileId cosUrlText
    rw [cstr_eq_self hbucketNul, cstr_eq_self hencodedNul, cstr_eq_self hnul, hroot]
  have htake : (delBase appid endpoint bucket path).2 = 47 :: (encodePath (cosUrlText bucket path appid)).take 2046 :=
    hfileId
  refine ⟨_, ?_, rfl, htake, ?_⟩
  · unfold delBase getEncodedCosUrl
    rw [snprintf_of_lt hfits]
  · rw [htake, List.cons.injEq, and_iff_right rfl]
    constructor
    · intro h
      have hlen := congrArg List.length h
      rw [List.length_take] at hlen
      omega
    · exact fun h => List.take_of_length_le (by omega)

/-- A folder of one letter. -/
theorem delete_signs_its_url_short :
    (delBase 7 [] [98] [47, 97, 47]).2 = 47 :: encodePath (cosUrlText [98] [47, 97, 47] 7) := by
  have hbucket : IsBucket [98] := ⟨by simp, by simp [isPlain, isalnum, isdigit]⟩
  obtain ⟨urlPath, -, rfl, -, hiff⟩ := delete_signs_its_url 7 [] [98] [47, 97, 47] hbucket
    (by decide +kernel) (by decide +kernel)
  exact hiff.mpr (by decide +kernel)

/-! ### The folders of files -/

/-- Names without a slash are told from the path of the folder. -/
theorem splitOn_folders : ∀ {names : List Bytes}, (∀ n ∈ names, 47 ∉ n) →
    (names.flatMap (· ++ [47])).splitOn 47 = names ++ [[]]
  | [], _ => rfl
  | n :: names, h => by
    rw [List.flatMap_cons, List.append_assoc, List.singleton_append,
      List.splitOn_append_cons_self_of_not_mem (h n List.mem_cons_self),
      splitOn_folders fun x hx => h x (List.mem_cons_of_mem n hx)]
    rfl

/-- What is named by a path in a folder. -/
theorem pathName_folder {names : List Bytes} (h : ∀ n ∈ names, 47 ∉ n) (s : Bytes) :
    pathName (folderPath names ++ s) = ⟨names.filter (· ≠ []) ++ tokens 47 s, (pathName s).folder⟩ := by
  have htokens : tokens 47 (names.flatMap (· ++ [47]) ++ s) = names.filter (· ≠ []) ++ tokens 47 s := by
    induction names with
    | nil => rfl
    | cons n names ih =>
      rw [List.flatMap_cons, List.append_assoc, List.append_assoc, List.singleton_append, tokens_append_sep,
        tokens_of_not_mem (h n List.mem_cons_self), ih fun x hx => h x (List.mem_cons_of_mem n hx)]
      by_cases hnil : n = []
      · simp [hnil]
      · simp [hnil]
  have hnames : tokens 47 (folderPath names ++ s) = names.filter (· ≠ []) ++ tokens 47 s := by
    rw [folderPath, List.cons_append, tokens_cons_sep, htokens]
  have hfolder : (pathName (folderPath names ++ s)).folder = (pathName s).folder := by
    show decide _ = decide _
    rw [decide_eq_decide]
    by_cases hs : s = []
    · rw [hs, List.append_nil]
      exact iff_of_true (.inr (folderPath_last names)) (.inl rfl)
    · rw [List.getLast?_append_of_ne_nil _ hs]
      simp [hs]
  rw [← hnames, ← hfolder]
  rfl

/-- **A file may be stored where its folder cannot be asked for.** A request for a file takes any names in front
of the file's, as an upload looks at the ends of the path only and the others at nothing, and one for a folder
only valid ones, so a file is stored in a folder with any other name, but
this is neither listed, made, looked at nor deleted. Folders that are asked for are told apart by their names,
while the paths of files with the same names are one file. -/
theorem folders_of_files (names : List Bytes) (name : Bytes) (hnames : ∀ n ∈ names, 47 ∉ n)
    (hname : name ≠ [] ∧ 47 ∉ name) :
    (∀ op : CosOp, op.folder = false → op.isParaValid (folderPath names ++ name) = true) ∧
      (∀ op : CosOp, op.folder = true →
        (op.isParaValid (folderPath names) = true ↔ ∀ n ∈ names, isValidFolderName n = true)) ∧
      (∀ p, isLegalFolderPath p = true → (pathName p = pathName (folderPath names) ↔
        p = folderPath (names.filter (· ≠ [])))) ∧
      pathName (folderPath names ++ name) = pathName (folderPath (names.filter (· ≠ [])) ++ name) := by
  have hlegal : isLegalFilePath (folderPath names ++ name) = true := by
    refine decide_eq_true ⟨rfl, ?_⟩
    rw [List.getLast?_append_of_ne_nil _ hname.1]
    exact fun h => hname.2 (List.mem_of_getLast? h)
  have hfolder : isLegalFolderPath (folderPath names) = true ↔ ∀ n ∈ names, isValidFolderName n = true := by
    rw [isLegalFolderPath_iff]
    constructor
    · rintro ⟨names', hvalid, heq⟩
      have hsplit := congrArg (List.splitOn 47) (List.cons.inj heq).2
      rw [splitOn_folders hnames, splitOn_folders fun n hn => validName_slash (hvalid n hn)] at hsplit
      rwa [(List.append_inj' hsplit rfl).1]
    · intro hvalid
      exact ⟨names, hvalid, rfl⟩
  have hkept : ∀ n ∈ names.filter (· ≠ []), 47 ∉ n := fun n hn => hnames n (List.mem_of_mem_filter hn)
  refine ⟨fun op hop => ?_, fun op hop => ?_, fun p hp => ?_, ?_⟩
  · cases op with
    | fileDownload => exact isParaValid_true _
    | fileStat => rfl
    | fileDelete => rfl
    | fileUpload => exact hlegal
    | folderCreate => cases hop
    | folderStat => cases hop
    | folderList => cases hop
    | folderDelete => cases hop
  · cases op with
    | fileDownload => cases hop
    | fileStat => cases hop
    | fileDelete => cases hop
    | fileUpload => cases hop
    | folderCreate => exact hfolder
    | folderStat => exact hfolder
    | folderList => exact hfolder
    | folderDelete => exact hfolder
  · obtain ⟨names', hvalid, rfl⟩ := (isLegalFolderPath_iff p).mp hp
    have hfolders := pathName_folder hnames []
    have hfiltered := pathName_folder hkept []
    rw [tokens_nil, List.append_nil, List.append_nil] at hfolders hfiltered
    constructor
    · intro h
      have hsame : tokens 47 (folderPath names') = names.filter (· ≠ []) := congrArg ObjectName.names (h.trans hfolders)
      rw [tokens_folderPath hvalid] at hsame
      rw [hsame]
    · intro h
      rw [h, hfolders, hfiltered, List.filter_filter]
      simp
  · rw [pathName_folder hnames, pathName_folder hkept, List.filter_filter]
    simp

/-- A file may be uploaded to "/a:/b", but "/a:/" cannot be listed. -/
theorem folders_of_files_colon : CosOp.fileUpload.isParaValid (folderPath [[97, 58]] ++ [98]) = true ∧
    CosOp.folderList.isParaValid (folderPath [[97, 58]]) = false := by
  obtain ⟨hfile, hfolder, -⟩ := folders_of_files [[97, 58]] [98] (by simp) (by simp)
  refine ⟨hfile .fileUpload rfl, ?_⟩
  have hnot : ¬ ∀ n ∈ [[97, 58]], isValidFolderName n = true := fun h =>
    absurd (h [97, 58] List.mem_cons_self) (by decide +kernel)
  exact Bool.not_eq_true _ ▸ fun h => hnot ((hfolder .folderList rfl).mp h)

end Sdk
end CosFtp
