import ControlPlane.Proof.Texts
import ControlPlane.Upstream.Surface

/-!
# Surfaces and the allowlist

What the proxy assembles for a surface is one request line the allowlist finds the same surface for;
no two surfaces take the same request.
-/

namespace ControlPlane.Upstream

open List Bool Text

variable {c : Char} {cs : List Char} {surface : Surface} {s segment : String} {given : List String}
  {path : String}

/-- A character that stands for itself in a request line and does not begin a query. -/
def plain (c : Char) : Bool := c ≠ '\r' && c ≠ '\n' && c ≠ ' ' && c ≠ '\t' && c ≠ '?'

theorem plain_of_toNat (hlow : 33 ≤ c.toNat) (hmark : c.toNat ≠ 63) : plain c = true := by
  have hne (d : Char) (hd : d.toNat < 33 ∨ d.toNat = 63) : c ≠ d := by
    rintro rfl
    omega
  simp [plain, hne '\r' (by decide), hne '\n' (by decide), hne ' ' (by decide),
    hne '\t' (by decide), hne '?' (by decide)]

theorem plain_of_hexdigit (hc : Text.isAsciiHexdigit c = true) : plain c = true := by
  have hrange : (48 ≤ c.toNat ∧ c.toNat ≤ 57) ∨ (97 ≤ c.toNat ∧ c.toNat ≤ 102) ∨
      (65 ≤ c.toNat ∧ c.toNat ≤ 70) := by
    rw [isAsciiHexdigit, or_eq_true, or_eq_true] at hc
    obtain (hc | hc) | hc := hc
    · exact Or.inl (toNat_of_isAsciiDigit hc)
    · exact Or.inr (Or.inl (of_decide_eq_true hc))
    · exact Or.inr (Or.inr (of_decide_eq_true hc))
  apply plain_of_toNat <;> omega

theorem plain_of_safeChar (hc : safeChar c = true) : plain c = true := by
  simp only [safeChar, or_eq_true, decide_eq_true_eq] at hc
  obtain ((hc | hc) | rfl) | rfl := hc
  · have hrange := toNat_of_isAsciiLowercase hc
    apply plain_of_toNat <;> omega
  · have hrange := toNat_of_isAsciiDigit hc
    apply plain_of_toNat <;> omega
  · rfl
  · rfl

theorem mem_of_mem_intercalate {sep : Char} {parts : List (List Char)}
    (hc : c ∈ [sep].intercalate parts) : c = sep ∨ ∃ part ∈ parts, c ∈ part := by
  induction parts with
  | nil => simp [intercalate] at hc
  | cons first rest ih =>
    cases rest with
    | nil => exact Or.inr ⟨first, mem_cons_self, by simpa [intercalate] using hc⟩
    | cons second rest =>
      rw [intercalate, intersperse_cons_cons, flatten_cons, flatten_cons,
        mem_append, mem_append, mem_singleton] at hc
      obtain hc | rfl | hc := hc
      · exact Or.inr ⟨first, mem_cons_self, hc⟩
      · exact Or.inl rfl
      · obtain heq | ⟨part, hpart, hmem⟩ := ih hc
        · exact Or.inl heq
        · exact Or.inr ⟨part, mem_cons_of_mem first hpart, hmem⟩

theorem plain_of_hyphenated (hcs : hyphenated cs = true) (hc : c ∈ cs) : plain c = true := by
  obtain ⟨index, hindex⟩ := mem_iff_getElem?.mp hc
  have hmem : (c, index) ∈ cs.zipIdx := mem_zipIdx_iff_getElem?.mpr hindex
  have hpos := all_eq_true.mp (and_eq_true_iff.mp hcs).2 _ hmem
  dsimp only at hpos
  split_ifs at hpos
  · rw [of_decide_eq_true hpos]
    rfl
  · exact plain_of_hexdigit hpos

theorem plain_of_uuidParses (hs : uuidParses s = true) (hc : c ∈ s.toList) : plain c = true := by
  simp only [uuidParses, or_eq_true, and_eq_true, Option.any_eq_true] at hs
  obtain ((⟨-, hs⟩ | hs) | ⟨inner, hinner, hs⟩) | ⟨rest, hrest, hs⟩ := hs
  · exact plain_of_hexdigit (all_eq_true.mp hs c hc)
  · exact plain_of_hyphenated hs hc
  · obtain ⟨opened, hopened, hclosed⟩ := Option.bind_eq_some_iff.mp hinner
    rw [toList_of_strip hopened, mem_append] at hc
    rw [toList_of_stripEnd hclosed, mem_append] at hc
    obtain hc | hc | hc := hc
    · exact all_eq_true.mp (show "\x7b".toList.all plain = true by decide) c hc
    · exact plain_of_hyphenated hs hc
    · exact all_eq_true.mp (show "\x7d".toList.all plain = true by decide) c hc
  · rw [toList_of_strip hrest, mem_append] at hc
    obtain hc | hc := hc
    · exact all_eq_true.mp (show "urn:uuid:".toList.all plain = true by decide) c hc
    · exact plain_of_hyphenated hs hc

theorem plain_of_fitsSegment {pattern : String} (hpattern : ∀ c ∈ pattern.toList, plain c = true)
    (hfits : fitsSegment pattern segment = true) (hc : c ∈ segment.toList) : plain c = true := by
  unfold fitsSegment at hfits
  split at hfits
  · split_ifs at hfits
    · exact plain_of_uuidParses hfits hc
    · exact plain_of_safeChar (all_eq_true.mp (and_eq_true_iff.mp hfits).2 c hc)
  · rw [← of_decide_eq_true hfits] at hc
    exact hpattern c hc

theorem plain_of_fitsAll {want : List String} (hwant : ∀ s ∈ want, ∀ c ∈ s.toList, plain c = true)
    (hfits : fitsAll want given = true) : ∀ s ∈ given, ∀ c ∈ s.toList, plain c = true := by
  induction want generalizing given with
  | nil =>
    cases given with
    | nil => simp
    | cons => simp [fitsAll] at hfits
  | cons pattern want ih =>
    cases given with
    | nil => simp
    | cons segment given =>
      obtain ⟨hhead, htail⟩ := and_eq_true_iff.mp hfits
      obtain ⟨hpattern, hwant⟩ := forall_mem_cons.mp hwant
      exact forall_mem_cons.mpr
        ⟨fun c hc => plain_of_fitsSegment hpattern hhead hc, ih hwant htail⟩

theorem plain_of_fits {template : String}
    (htemplate : ∀ part ∈ template.toList.splitOn '/', part.all plain = true)
    (hfits : fits template path = true) (hc : c ∈ path.toList) : plain c = true := by
  have hsegments : ∀ s ∈ segments template, ∀ c ∈ s.toList, plain c = true := by
    intro s hs c hc
    obtain ⟨part, hpart, rfl⟩ := mem_map.mp hs
    rw [String.toList_ofList] at hc
    exact all_eq_true.mp (htemplate part hpart) c hc
  have hjoin : ['/'].intercalate (path.toList.splitOn '/') = path.toList := intercalate_splitOn '/'
  rw [← hjoin] at hc
  obtain rfl | ⟨part, hpart, hc⟩ := mem_of_mem_intercalate hc
  · rfl
  · rw [← String.toList_ofList (l := part)] at hc
    exact plain_of_fitsAll hsegments hfits _ (mem_map_of_mem hpart) c hc

inductive Spelled : List Surface → List (String × List Char) → Prop
  | nil : Spelled [] []
  | cons {surface rest cs table} (hpath : surface.path = String.ofList cs) (hrest : Spelled rest table) :
      Spelled (surface :: rest) ((surface.method, cs) :: table)

theorem Spelled.eq_map {list : List Surface} {table : List (String × List Char)}
    (hspelled : Spelled list table) :
    table = list.map fun surface => (surface.method, surface.path.toList) := by
  induction hspelled with
  | nil => rfl
  | cons hpath _ ih => rw [map_cons, hpath, String.toList_ofList, ← ih]

/-- `List.splitOn` by structural recursion. -/
def cutAt (sep : Char) : List Char → List (List Char)
  | [] => [[]]
  | c :: cs => if c = sep then [] :: cutAt sep cs else (cutAt sep cs).modifyHead (c :: ·)

theorem cutAt_eq (sep : Char) (cs : List Char) : cutAt sep cs = cs.splitOn sep := by
  induction cs with
  | nil => rfl
  | cons c cs ih => simp [cutAt, splitOn_cons_eq_if_modifyHead, ih]

def isParameter (pattern : List Char) : Bool := pattern.head? = some '\x7b'

def apartSegments (first second : List Char) : Bool :=
  match isParameter first, isParameter second with
  | false, false => first ≠ second
  | false, true => !fitsSegment (String.ofList second) (String.ofList first)
  | true, false => !fitsSegment (String.ofList first) (String.ofList second)
  | true, true => false

def apart : List (List Char) → List (List Char) → Bool
  | [], [] => false
  | first :: firsts, second :: seconds => apartSegments first second || apart firsts seconds
  | _, _ => true

set_option maxRecDepth 8000 in
theorem surfaces_table : ∃ table, Spelled surfaces table ∧
    (table.all fun row => (cutAt '/' row.2).all (·.all plain)) = true ∧
    (table.map fun row => (row.1, cutAt '/' row.2)).Pairwise
      fun first second => first.1 ≠ second.1 ∨ apart first.2 second.2 = true := by
  refine ⟨_, by repeat constructor, ?_⟩
  decide

theorem plain_of_surface (hsurface : surface ∈ surfaces) :
    ∀ part ∈ surface.path.toList.splitOn '/', part.all plain = true := by
  obtain ⟨table, hspelled, hplain, -⟩ := surfaces_table
  have hrow : (surface.method, surface.path.toList) ∈ table := by
    rw [hspelled.eq_map]
    exact mem_map_of_mem hsurface
  have hparts := all_eq_true.mp hplain _ hrow
  rw [cutAt_eq] at hparts
  exact all_eq_true.mp hparts

theorem surfaces_apart : surfaces.Pairwise fun first second =>
    first.method ≠ second.method ∨
      apart (first.path.toList.splitOn '/') (second.path.toList.splitOn '/') = true := by
  obtain ⟨table, hspelled, -, hapart⟩ := surfaces_table
  rw [hspelled.eq_map, map_map, pairwise_map] at hapart
  simpa only [Function.comp_def, cutAt_eq] using hapart

theorem parameterName_eq_none (hcs : isParameter cs = false) : parameterName (String.ofList cs) = none := by
  rw [parameterName, Option.bind_eq_none_iff]
  intro rest hstrip
  have hlist := toList_of_strip hstrip
  rw [String.toList_ofList] at hlist
  rw [hlist] at hcs
  exact absurd hcs (by simp [isParameter])

theorem eq_of_fitsSegment (hcs : isParameter cs = false)
    (hfits : fitsSegment (String.ofList cs) segment = true) : String.ofList cs = segment := by
  rw [fitsSegment, parameterName_eq_none hcs] at hfits
  exact of_decide_eq_true hfits

theorem not_fits_of_apartSegments {first second : List Char}
    (hapart : apartSegments first second = true)
    (hfirst : fitsSegment (String.ofList first) segment = true) :
    fitsSegment (String.ofList second) segment = false := by
  by_contra hsecond
  rw [not_eq_false] at hsecond
  unfold apartSegments at hapart
  split at hapart
  case h_1 hone htwo =>
    have heq := (eq_of_fitsSegment hone hfirst).trans (eq_of_fitsSegment htwo hsecond).symm
    exact of_decide_eq_true hapart (String.ofList_injective heq)
  case h_2 hone htwo =>
    rw [eq_of_fitsSegment hone hfirst, hsecond] at hapart
    exact absurd hapart (by decide)
  case h_3 hone htwo =>
    rw [eq_of_fitsSegment htwo hsecond, hfirst] at hapart
    exact absurd hapart (by decide)
  case h_4 => exact absurd hapart (by decide)

theorem not_fits_of_apart {firsts seconds : List (List Char)} (hapart : apart firsts seconds = true)
    (hfirst : fitsAll (firsts.map String.ofList) given = true) :
    fitsAll (seconds.map String.ofList) given = false := by
  induction firsts generalizing seconds given with
  | nil =>
    cases given with
    | nil =>
      cases seconds with
      | nil => exact absurd hapart (by decide)
      | cons => rfl
    | cons => exact absurd hfirst (by simp [fitsAll])
  | cons first firsts ih =>
    cases given with
    | nil => exact absurd hfirst (by simp [fitsAll])
    | cons segment given =>
      obtain ⟨hhead, htail⟩ := and_eq_true_iff.mp hfirst
      cases seconds with
      | nil => rfl
      | cons second seconds =>
        rw [map_cons, fitsAll]
        obtain hsegments | hrest := or_eq_true_iff.mp hapart
        · rw [not_fits_of_apartSegments hsegments hhead, Bool.false_and]
        · rw [ih hrest htail, Bool.and_false]

theorem length_fitting_le_one (method path : String) :
    (surfaces.filter fun surface => surface.method = method && fits surface.path path).length ≤ 1 := by
  have hapart := surfaces_apart.filter fun surface => surface.method = method && fits surface.path path
  have hfits : ∀ surface ∈ surfaces.filter fun surface => surface.method = method && fits surface.path path,
      surface.method = method ∧ fits surface.path path = true := by
    simp
  generalize surfaces.filter _ = fitting at hapart hfits
  match fitting with
  | [] => exact Nat.zero_le 1
  | [_] => exact Nat.le_refl 1
  | first :: second :: rest =>
    have hone := hfits first mem_cons_self
    have htwo := hfits second (mem_cons_of_mem _ mem_cons_self)
    obtain hmethod | hpaths := rel_of_pairwise_cons hapart mem_cons_self
    · exact absurd (hone.1.trans htwo.1.symm) hmethod
    · have hnot : fits second.path path = false := not_fits_of_apart hpaths hone.2
      exact absurd (htwo.2.symm.trans hnot) (by decide)

def quiet (c : Char) : Bool := plain c && c ≠ '&' && c ≠ '='

def readsBack (byte : UInt8) : List Char → Bool
  | [c] => c ≠ '%' && String.utf8EncodeChar c = [byte]
  | ['%', high, low] =>
    Option.map₂ (fun high low => UInt8.ofNat (16 * high + low)) (Text.hexValue high)
      (Text.hexValue low) = some byte
  | _ => false

def plusToSpace (c : Char) : Char := if c = '+' then ' ' else c

theorem serializeByte_spec (byte : UInt8) :
    (serializeByte byte).all quiet = true ∧
      readsBack byte ((serializeByte byte).map plusToSpace) = true := by
  have hall : ∀ n : Fin 256, (serializeByte (UInt8.ofFin n)).all quiet = true ∧
      readsBack (UInt8.ofFin n) ((serializeByte (UInt8.ofFin n)).map plusToSpace) = true := by
    decide +kernel
  exact hall byte.toFin

theorem percentDecodeBytes_cons (hc : c ≠ '%') (rest : List Char) :
    Text.percentDecodeBytes (c :: rest) = String.utf8EncodeChar c ++ Text.percentDecodeBytes rest := by
  match rest with
  | [] => rfl
  | [_] => rfl
  | high :: low :: rest =>
    rw [percentDecodeBytes]
    intro _ _ hpercent
    exact absurd hpercent hc

theorem percentDecodeBytes_of_readsBack {byte : UInt8} (hcs : readsBack byte cs = true) (rest : List Char) :
    Text.percentDecodeBytes (cs ++ rest) = byte :: Text.percentDecodeBytes rest := by
  unfold readsBack at hcs
  split at hcs
  · rw [and_eq_true, decide_eq_true_iff, decide_eq_true_iff] at hcs
    rw [singleton_append, percentDecodeBytes_cons hcs.1, hcs.2, singleton_append]
  · rename_i high low
    obtain ⟨x, y, hhigh, hlow, rfl⟩ := Option.map₂_eq_some_iff.mp (of_decide_eq_true hcs)
    rw [Option.mem_def] at hhigh hlow
    simp only [cons_append, nil_append, percentDecodeBytes, hhigh, hlow]
  · exact absurd hcs (by decide)

theorem percentDecodeBytes_serialized (bytes : Bytes) :
    Text.percentDecodeBytes ((bytes.flatMap serializeByte).map plusToSpace) = bytes := by
  induction bytes with
  | nil => rfl
  | cons byte bytes ih =>
    rw [flatMap_cons, map_append, percentDecodeBytes_of_readsBack (serializeByte_spec byte).2, ih]

theorem quiet_of_mem_byteSerialize (hc : c ∈ byteSerialize s) : quiet c = true := by
  obtain ⟨byte, -, hc⟩ := mem_flatMap.mp hc
  exact all_eq_true.mp (serializeByte_spec byte).1 c hc

theorem queryKey_serialized (key : String) (rest : List Char) :
    queryKey (byteSerialize key ++ '=' :: rest) = some key := by
  have hkey : (byteSerialize key ++ '=' :: rest).takeWhile (· ≠ '=') = byteSerialize key := by
    rw [takeWhile_append_of_pos]
    · simp
    · intro c hc
      exact (and_eq_true_iff.mp (quiet_of_mem_byteSerialize hc)).2
  rw [queryKey, hkey, Text.replace, String.toList_ofList, Text.percentDecode, String.toList_ofList]
  exact (congrArg Text.fromUtf8 (percentDecodeBytes_serialized (utf8 key))).trans Text.fromUtf8_encoded

variable {pairs : List (String × String)} {query : String}

theorem queryKeys_formSerialize : queryKeys (formSerialize pairs) = pairs.map (some ·.1) := by
  rw [queryKeys, formSerialize, String.toList_ofList]
  by_cases hpairs : pairs = []
  · rw [hpairs]
    rfl
  rw [splitOn_intercalate]
  · rw [filter_eq_self.mpr, map_map]
    · apply map_congr_left
      intro pair _
      rw [Function.comp_apply, queryKey_serialized]
    · intro part hpart
      obtain ⟨pair, -, rfl⟩ := mem_map.mp hpart
      simp
  · intro part hpart hamp
    obtain ⟨pair, -, rfl⟩ := mem_map.mp hpart
    rw [mem_append, mem_cons] at hamp
    obtain hamp | hamp | hamp := hamp
    · exact absurd (quiet_of_mem_byteSerialize hamp) (by decide)
    · exact absurd hamp (by decide)
    · exact absurd (quiet_of_mem_byteSerialize hamp) (by decide)
  · exact fun hnil => hpairs (map_eq_nil_iff.mp hnil)

theorem plain_of_mem_formSerialize (hc : c ∈ (formSerialize pairs).toList) : plain c = true := by
  have hquiet {s : String} (hs : c ∈ byteSerialize s) : plain c = true :=
    (and_eq_true_iff.mp (and_eq_true_iff.mp (quiet_of_mem_byteSerialize hs)).1).1
  rw [formSerialize, String.toList_ofList] at hc
  obtain rfl | ⟨part, hpart, hc⟩ := mem_of_mem_intercalate hc
  · rfl
  obtain ⟨pair, -, rfl⟩ := mem_map.mp hpart
  rw [mem_append, mem_cons] at hc
  obtain hc | rfl | hc := hc
  · exact hquiet hc
  · rfl
  · exact hquiet hc

theorem contains_of_checkPair (hcheck : pairs.forM (checkPair surface) = .ok ()) :
    ∀ pair ∈ pairs, surface.query.contains pair.1 = true := by
  induction pairs with
  | nil => simp
  | cons pair pairs ih =>
    rw [forM_eq_forM, forM_cons] at hcheck
    cases hpair : checkPair surface pair with
    | error e =>
      rw [hpair] at hcheck
      cases hcheck
    | ok =>
      rw [hpair] at hcheck
      refine forall_mem_cons.mpr ⟨?_, ih hcheck⟩
      by_contra hkey
      rw [checkPair, if_pos (by simpa using hkey)] at hpair
      cases hpair

theorem of_upstreamQuery {lossy : Bytes → String} {raw : Option String}
    (hquery : upstreamQuery lossy surface raw = .ok query) :
    ∃ pairs, query = formSerialize pairs ∧ ∀ pair ∈ pairs, surface.query.contains pair.1 = true := by
  unfold upstreamQuery at hquery
  split at hquery
  · cases hquery
    exact ⟨[], rfl, nofun⟩
  · rename_i raw _
    cases hcheck : (formParse lossy raw).forM (checkPair surface) with
    | error e =>
      rw [hcheck] at hquery
      cases hquery
    | ok =>
      rw [hcheck] at hquery
      obtain rfl := Except.ok.inj hquery
      exact ⟨_, rfl, contains_of_checkPair hcheck⟩

theorem plain_upstream (hpath : ∀ c ∈ path.toList, plain c = true) :
    ∀ c ∈ (upstreamPrefix ++ path).toList, plain c = true := by
  intro c hc
  rw [String.toList_append, mem_append] at hc
  obtain hc | hc := hc
  · exact all_eq_true.mp (show upstreamPrefix.toList.all plain = true by decide) c hc
  · exact hpath c hc

theorem splitQuery_upstreamPath (hpath : ∀ c ∈ path.toList, plain c = true) :
    splitQuery (upstreamPath path query) = (upstreamPrefix ++ path, query) := by
  have hbefore : ∀ c ∈ (upstreamPrefix ++ path).toList, decide (c ≠ '?') = true := fun c hc =>
    (and_eq_true_iff.mp (plain_upstream hpath c hc)).2
  unfold upstreamPath
  split_ifs with hquery
  · have hnone : (upstreamPrefix ++ path).toList.dropWhile (· ≠ '?') = [] :=
      dropWhile_eq_nil_iff.mpr hbefore
    rw [splitQuery, splitOnce, hnone, hquery]
    rfl
  · have hlist : (upstreamPrefix ++ path ++ "?" ++ query).toList =
        (upstreamPrefix ++ path).toList ++ '?' :: query.toList := by simp
    rw [splitQuery, splitOnce, hlist, dropWhile_append_of_pos hbefore,
      takeWhile_append_of_pos hbefore]
    simp

theorem strip_append (start rest : String) : Text.strip start (start ++ rest) = some rest := by
  simp [strip]

/-- What the proxy finds a surface for, with a query it takes apart, is one request line that the
allowlist lets pass, found for one surface only. -/
theorem surface_requests_allowed :
    (∀ (lossy : Bytes → String) (method path : String) (raw : Option String) (surface : Surface)
        (query : String), find method path = some surface → upstreamQuery lossy surface raw = .ok query →
      containsRequestWhitespace (upstreamPath path query) = false ∧
        allows method (upstreamPath path query) = true) ∧
    ∀ method path : String,
      (surfaces.filter fun surface => surface.method = method && fits surface.path path).length ≤ 1 := by
  refine ⟨?_, length_fitting_le_one⟩
  intro lossy method path raw surface query hfind hquery
  have hfits : surface.method = method ∧ fits surface.path path = true := by
    simpa using find?_some hfind
  have hpath : ∀ c ∈ path.toList, plain c = true := fun c hc =>
    plain_of_fits (plain_of_surface (mem_of_find?_eq_some hfind)) hfits.2 hc
  obtain ⟨pairs, rfl, hpairs⟩ := of_upstreamQuery hquery
  constructor
  · rw [containsRequestWhitespace, any_eq_false]
    intro c hc
    have hplain : plain c = true ∨ c = '?' := by
      unfold upstreamPath at hc
      split_ifs at hc
      · exact Or.inl (plain_upstream hpath c hc)
      · rw [String.toList_append, String.toList_append, mem_append, mem_append] at hc
        obtain (hc | hc) | hc := hc
        · exact Or.inl (plain_upstream hpath c hc)
        · exact Or.inr (by simpa using hc)
        · exact Or.inl (plain_of_mem_formSerialize hc)
    obtain hplain | rfl := hplain
    · simp only [plain, and_eq_true, decide_eq_true_eq] at hplain
      simp [hplain]
    · decide
  · rw [allows, splitQuery_upstreamPath hpath]
    dsimp only
    rw [strip_append, Option.bind_some, hfind, Option.any_some, queryKeys_formSerialize, all_map]
    refine or_eq_true_iff.mpr (Or.inr (all_eq_true.mpr ?_))
    intro pair hpair
    exact hpairs pair hpair

theorem surface_requests_allowed_cycles :
    find "GET" "ops/cycles" = some (readQ "ops/cycles" ["state", "limit"]) ∧
      upstreamQuery (fun bytes => (Text.fromUtf8 bytes).getD "") (readQ "ops/cycles" ["state", "limit"])
        (some "state=a%20b&limit=5") = .ok "state=a+b&limit=5" ∧
      allows "GET" "/v1/control-plane/ops/cycles?state=a+b&limit=5" = true := by
  have hfind : find "GET" "ops/cycles" = some (readQ "ops/cycles" ["state", "limit"]) := by
    rfl
  have hquery : upstreamQuery (fun bytes => (Text.fromUtf8 bytes).getD "")
      (readQ "ops/cycles" ["state", "limit"]) (some "state=a%20b&limit=5") = .ok "state=a+b&limit=5" := by
    rfl
  exact ⟨hfind, hquery, (surface_requests_allowed.1 _ _ _ _ _ _ hfind hquery).2⟩

end ControlPlane.Upstream
