import ControlPlane.Proof.Texts
import ControlPlane.Store.Provisioning
import ControlPlane.Validation

/-!
# Database names on a shared cluster

Server and provisioner derive the same name from a tenant's slug and id. Names of different tenants
are different unless one is cut and the other repeats what is left of it.
-/

namespace ControlPlane

open Store List Text

variable {slug slug' : String} {tenantId tenantId' : Uuid}

def ValidSlug (slug : String) : Prop := ∃ raw, Validation.slug raw = .ok slug

def isSlugChar (c : Char) : Bool := Text.isAsciiLowercase c || Text.isAsciiDigit c || c == '-'

variable {c : Char}

theorem toNat_of_isSlugChar (hc : isSlugChar c = true) :
    (97 ≤ c.toNat ∧ c.toNat ≤ 122) ∨ (48 ≤ c.toNat ∧ c.toNat ≤ 57) ∨ c.toNat = 45 := by
  rw [isSlugChar, Bool.or_eq_true, Bool.or_eq_true] at hc
  obtain (hc | hc) | hc := hc
  · exact Or.inl (toNat_of_isAsciiLowercase hc)
  · exact Or.inr (Or.inl (toNat_of_isAsciiDigit hc))
  · rw [beq_iff_eq.mp hc]
    exact Or.inr (Or.inr rfl)

structure SlugText (slug : String) : Prop where
  two_le : 2 ≤ slug.toList.length
  le : slug.toList.length ≤ 63
  chars : ∀ c ∈ slug.toList, isSlugChar c = true
  head : slug.toList.head? ≠ some '-'

theorem ValidSlug.text (hslug : ValidSlug slug) : SlugText slug := by
  obtain ⟨raw, hraw⟩ := hslug
  unfold Validation.slug at hraw
  simp only at hraw
  split_ifs at hraw with hbad
  obtain rfl := Except.ok.inj hraw
  generalize toAsciiLowercase (trim raw) = slug at hbad
  push Not at hbad
  obtain ⟨⟨hlo, hhi⟩, hchars, -⟩ := hbad
  rw [all_eq_true] at hchars
  have hat (i : Nat) (c : Char) (hi : slug.toList[i]? = some c) :
      isSlugChar c = true ∧ (c = '-' → 0 < i) := by
    have hc := hchars (c, i) (mk_mem_zipIdx_iff_getElem?.mpr hi)
    simp only [Bool.or_eq_true, Bool.and_eq_true, decide_eq_true_eq, beq_iff_eq] at hc
    constructor
    · rw [isSlugChar, Bool.or_eq_true, Bool.or_eq_true, beq_iff_eq]
      exact hc.imp_right And.right
    · rintro rfl
      obtain (hc | hc) | hc := hc
      · exact absurd hc (by decide)
      · exact absurd hc (by decide)
      · exact hc.1
  have hall : ∀ c ∈ slug.toList, isSlugChar c = true := by
    intro c hc
    obtain ⟨i, hi⟩ := mem_iff_getElem?.mp hc
    exact (hat i c hi).1
  have hsize : slug.utf8ByteSize = slug.toList.length := by
    apply utf8ByteSize_of_ascii
    intro c hc
    have hnat := toNat_of_isSlugChar (hall c hc)
    omega
  rw [hsize] at hlo hhi
  refine ⟨hlo, hhi, hall, ?_⟩
  intro hhead
  rw [head?_eq_getElem?] at hhead
  exact absurd ((hat 0 '-' hhead).2 rfl) (by decide)

def underscored (c : Char) : Char := if c = '-' then '_' else c

def fragment (tenantId : Uuid) : List Char := tenantId.simple.toList.take 8

theorem length_fragment : (fragment tenantId).length = 8 := by
  have hlength := le_length_hex 32 tenantId
  rw [fragment, Uuid.simple, length_take]
  omega

theorem isLowerHex_of_mem_fragment (hc : c ∈ fragment tenantId) :
    Text.isLowerHex c = true := isLowerHex_of_mem_hex (mem_of_mem_take hc)

theorem ne_dash_of_mem_fragment (hc : c ∈ fragment tenantId) : c ≠ '-' := by
  rintro rfl
  exact absurd (isLowerHex_of_mem_fragment hc) (by decide)

theorem filter_hyphenated :
    (tenantId.hyphenated.toList.filter (· ≠ '-')).take 8 = fragment tenantId := by
  have hclean : (fragment tenantId).filter (· ≠ '-') = fragment tenantId := by
    apply filter_eq_self.mpr
    intro c hc
    exact decide_eq_true (ne_dash_of_mem_fragment hc)
  rw [Uuid.hyphenated, String.toList_ofList]
  simp only [drop_zero, append_assoc, filter_append]
  rw [show tenantId.simple.toList.take 8 = fragment tenantId from rfl, hclean]
  exact take_left' length_fragment

def databaseName (slug : List Char) (tenantId : Uuid) : List Char :=
  't' :: '_' :: (if slug.length ≤ 61 then slug.map underscored
    else (slug.map underscored).take 52 ++ '_' :: fragment tenantId)

theorem placementDatabaseName_eq (hslug : SlugText slug) :
    placementDatabaseName slug tenantId = String.ofList (databaseName slug.toList tenantId) := by
  have hreplaced : (Text.replace '-' '_' slug).toList = slug.toList.map underscored := by
    rw [Text.replace, String.toList_ofList]
    rfl
  have hascii : ∀ c ∈ slug.toList.map underscored, c.toNat < 128 := by
    intro c hc
    obtain ⟨d, hd, rfl⟩ := mem_map.mp hc
    have hnat := toNat_of_isSlugChar (hslug.chars d hd)
    unfold underscored
    split_ifs with hdash
    · decide
    · omega
  have hsimple : ∀ c ∈ tenantId.simple.toList, c.toNat < 128 := by
    intro c hc
    have hnat := toNat_of_isLowerHex (isLowerHex_of_mem_hex hc)
    omega
  have hbody : (Text.replace '-' '_' slug).utf8ByteSize = slug.toList.length := by
    rw [utf8ByteSize_of_ascii (by rw [hreplaced]; exact hascii), hreplaced, length_map]
  have hsize : ("t_" ++ Text.replace '-' '_' slug).utf8ByteSize = 2 + slug.toList.length := by
    rw [String.utf8ByteSize_append, hbody]
    rfl
  unfold placementDatabaseName databaseName
  apply String.toList_inj.mp
  simp only [hsize, String.toList_ofList, sliceTo]
  by_cases hfits : slug.toList.length ≤ 61
  · rw [if_pos (by omega), if_pos hfits, String.toList_append, hreplaced]
    rfl
  · rw [if_neg (by omega), if_neg hfits]
    simp only [String.toList_append, String.toList_ofList, hreplaced,
      takeBytes_of_ascii hascii, takeBytes_of_ascii hsimple, append_assoc]
    rfl

theorem provisioner_placementDatabaseName_eq :
    Provisioner.placementDatabaseName slug tenantId.hyphenated =
      String.ofList (databaseName slug.toList tenantId) := by
  have htwo : "t_".toList.length = 2 := rfl
  unfold Provisioner.placementDatabaseName databaseName
  simp only [filter_hyphenated, length_append, length_map, htwo]
  by_cases hfits : slug.toList.length ≤ 61
  · rw [if_pos (by omega), if_pos hfits]
    rfl
  · rw [if_neg (by omega), if_neg hfits, append_assoc]
    rfl

theorem length_databaseName (hslug : SlugText slug) :
    4 ≤ (databaseName slug.toList tenantId).length ∧
      (databaseName slug.toList tenantId).length ≤ 63 := by
  have htwo := hslug.two_le
  unfold databaseName
  split_ifs with hfits
  · simp only [length_cons, length_map]
    omega
  · simp only [length_cons, length_append, length_take, length_map, length_fragment]
    omega

def isNameChar (c : Char) : Bool := Text.isAsciiLowercase c || Text.isAsciiDigit c || c == '_'

theorem isNameChar_underscored (hc : isSlugChar c = true) : isNameChar (underscored c) = true := by
  unfold underscored
  split_ifs with hdash
  · rfl
  · have hne : (c == '-') = false := beq_eq_false_iff_ne.mpr hdash
    rw [isSlugChar, hne, Bool.or_false] at hc
    rw [isNameChar, hc, Bool.true_or]

theorem isNameChar_of_isLowerHex (hc : Text.isLowerHex c = true) : isNameChar c = true := by
  rw [isLowerHex, Bool.or_eq_true, decide_eq_true_iff] at hc
  obtain hc | ⟨hlo, hhi⟩ := hc
  · rw [isNameChar, hc, Bool.or_true, Bool.true_or]
  · have hz : c ≤ 'z' := Char.le_trans hhi (by decide)
    have hlower : isAsciiLowercase c = true := decide_eq_true ⟨hlo, hz⟩
    rw [isNameChar, hlower, Bool.true_or, Bool.true_or]

theorem isNameChar_of_mem_databaseName (hslug : SlugText slug)
    (hc : c ∈ databaseName slug.toList tenantId) : isNameChar c = true := by
  have hslugPart (hmem : c ∈ slug.toList.map underscored) : isNameChar c = true := by
    obtain ⟨d, hd, rfl⟩ := mem_map.mp hmem
    exact isNameChar_underscored (hslug.chars d hd)
  rw [databaseName, mem_cons, mem_cons] at hc
  obtain rfl | rfl | hc := hc
  · rfl
  · rfl
  · split_ifs at hc with hfits
    · exact hslugPart hc
    · obtain hc | hc := mem_append.mp hc
      · exact hslugPart (mem_of_mem_take hc)
      · obtain rfl | hc := mem_cons.mp hc
        · rfl
        · exact isNameChar_of_isLowerHex (isLowerHex_of_mem_fragment hc)

theorem fullmatch_databaseName (hslug : SlugText slug) :
    Pattern.fullmatch Provisioner.pgIdentPattern
      (String.ofList (databaseName slug.toList tenantId)) = true := by
  have hlength : 4 ≤ (databaseName slug.toList tenantId).length ∧
      (databaseName slug.toList tenantId).length ≤ 63 := length_databaseName hslug
  rw [Pattern.fullmatch_iff, String.toList_ofList, Provisioner.pgIdentPattern,
    RegularExpression.matches'_mul, Language.mem_mul]
  refine ⟨"t_".toList, Pattern.mem_literal.mpr rfl, (databaseName slug.toList tenantId).drop 2, ?_, rfl⟩
  refine (Pattern.mem_between_oneOf (show 1 ≤ 61 by decide)).mpr ⟨?_, ?_, ?_⟩
  · rw [length_drop]
    omega
  · rw [length_drop]
    omega
  · intro c hc
    have hname := isNameChar_of_mem_databaseName hslug (mem_of_mem_drop hc)
    simpa [isNameChar, or_assoc] using hname

theorem underscored_inj {d : Char} (hc : isSlugChar c = true) (hd : isSlugChar d = true)
    (heq : underscored c = underscored d) : c = d := by
  have hne {e : Char} (he : isSlugChar e = true) : e ≠ '_' := by
    rintro rfl
    exact absurd he (by decide)
  unfold underscored at heq
  split_ifs at heq with hc' hd' hd'
  · exact hc'.trans hd'.symm
  · exact absurd heq.symm (hne hd)
  · exact absurd heq (hne hc)
  · exact heq

theorem map_underscored_inj {cs ds : List Char} (hcs : ∀ c ∈ cs, isSlugChar c = true)
    (hds : ∀ d ∈ ds, isSlugChar d = true) (heq : cs.map underscored = ds.map underscored) :
    cs = ds := by
  induction cs generalizing ds with
  | nil => exact (map_eq_nil_iff.mp heq.symm).symm
  | cons c cs ih =>
    cases ds with
    | nil => cases heq
    | cons d ds =>
      obtain ⟨hhead, htail⟩ := cons.inj heq
      rw [underscored_inj (hcs c mem_cons_self) (hds d mem_cons_self) hhead,
        ih (fun e he => hcs e (mem_cons_of_mem c he))
          (fun e he => hds e (mem_cons_of_mem d he)) htail]

/-- What is left of a slug that is cut, as a slug of its own. -/
def remainder (slug : String) (tenantId : Uuid) : List Char :=
  slug.toList.take 52 ++ '-' :: fragment tenantId

theorem map_underscored_remainder :
    (remainder slug tenantId).map underscored =
      (slug.toList.map underscored).take 52 ++ '_' :: fragment tenantId := by
  have hfragment : (fragment tenantId).map underscored = fragment tenantId := by
    refine map_congr_left (fun c hc => ?_) |>.trans (map_id _)
    exact if_neg (ne_dash_of_mem_fragment hc)
  rw [remainder, map_append, map_cons, map_take, hfragment]
  rfl

theorem isSlugChar_of_mem_remainder (hslug : SlugText slug) (hc : c ∈ remainder slug tenantId) :
    isSlugChar c = true := by
  obtain hc | hc := mem_append.mp hc
  · exact hslug.chars c (mem_of_mem_take hc)
  · obtain rfl | hc := mem_cons.mp hc
    · rfl
    · have hname := isNameChar_of_isLowerHex (isLowerHex_of_mem_fragment hc)
      have hhex := toNat_of_isLowerHex (isLowerHex_of_mem_fragment hc)
      have hne : (c == '_') = false := by
        apply beq_eq_false_iff_ne.mpr
        rintro rfl
        revert hhex
        decide
      rw [isNameChar, hne, Bool.or_false] at hname
      rw [isSlugChar, hname, Bool.true_or]

/-- One of the two slugs is cut, and the other leaves the same: it is cut to the same 52 characters
for an id that begins with the same digits, or it is those characters, a hyphen and the digits. -/
def Clash (slug : String) (tenantId : Uuid) (slug' : String) (tenantId' : Uuid) : Prop :=
  (61 < slug.toList.length ∧ 61 < slug'.toList.length ∧
    remainder slug tenantId = remainder slug' tenantId') ∨
  (61 < slug.toList.length ∧ slug'.toList = remainder slug tenantId) ∨
  (61 < slug'.toList.length ∧ slug.toList = remainder slug' tenantId')

def carried (slug : String) (tenantId : Uuid) : List Char :=
  if slug.toList.length ≤ 61 then slug.toList else remainder slug tenantId

theorem databaseName_eq_carried :
    databaseName slug.toList tenantId = 't' :: '_' :: (carried slug tenantId).map underscored := by
  unfold databaseName carried
  split_ifs with hfits
  · rfl
  · rw [map_underscored_remainder]

theorem databaseName_eq_iff (hslug : SlugText slug) (hslug' : SlugText slug') :
    databaseName slug.toList tenantId = databaseName slug'.toList tenantId' ↔
      carried slug tenantId = carried slug' tenantId' := by
  have hchars {slug : String} {tenantId : Uuid} (hslug : SlugText slug) :
      ∀ c ∈ carried slug tenantId, isSlugChar c = true := by
    intro c hc
    unfold carried at hc
    split_ifs at hc with hfits
    · exact hslug.chars c hc
    · exact isSlugChar_of_mem_remainder hslug hc
  rw [databaseName_eq_carried, databaseName_eq_carried]
  constructor
  · intro heq
    exact map_underscored_inj (hchars hslug) (hchars hslug') (cons.inj (cons.inj heq).2).2
  · intro heq
    rw [heq]

theorem carried_eq_iff (hne : slug ≠ slug') :
    carried slug tenantId = carried slug' tenantId' ↔ Clash slug tenantId slug' tenantId' := by
  have hlength {slug : String} (tenantId : Uuid) (hlong : 61 < slug.toList.length) :
      (remainder slug tenantId).length = 61 := by
    rw [remainder, length_append, length_cons, length_take, length_fragment]
    omega
  have hlists : slug.toList ≠ slug'.toList := fun heq => hne (String.toList_inj.mp heq)
  unfold carried Clash
  split_ifs with hfits hfits' hfits'
  · -- both slugs are carried whole
    constructor
    · intro heq
      exact absurd heq hlists
    · rintro (⟨hlong, -⟩ | ⟨hlong, -⟩ | ⟨hlong, -⟩)
      · omega
      · omega
      · omega
  · constructor
    · intro heq
      exact Or.inr (Or.inr ⟨by omega, heq⟩)
    · rintro (⟨hlong, -⟩ | ⟨hlong, -⟩ | ⟨-, heq⟩)
      · omega
      · omega
      · exact heq
  · constructor
    · intro heq
      exact Or.inr (Or.inl ⟨by omega, heq.symm⟩)
    · rintro (⟨-, hlong, -⟩ | ⟨-, heq⟩ | ⟨hlong, -⟩)
      · omega
      · exact heq.symm
      · omega
  · -- a slug that is cut is longer than what is left of any
    constructor
    · intro heq
      exact Or.inl ⟨by omega, by omega, heq⟩
    · rintro (⟨-, -, heq⟩ | ⟨hlong, heq⟩ | ⟨hlong, heq⟩)
      · exact heq
      · have hshort := hlength tenantId hlong
        rw [← heq] at hshort
        omega
      · have hshort := hlength tenantId' hlong
        rw [← heq] at hshort
        omega

/-- **Isolation by name.** Two tenants with different slugs have different databases exactly if they
do not clash; and both programs derive the same name, at most 63 bytes long and of the form that is
never quoted. -/
theorem placement_isolates_iff (hslug : ValidSlug slug) (hslug' : ValidSlug slug')
    (hne : slug ≠ slug') :
    (placementDatabaseName slug tenantId ≠ placementDatabaseName slug' tenantId' ↔
      ¬ Clash slug tenantId slug' tenantId') ∧
    placementDatabaseName slug tenantId =
      Provisioner.placementDatabaseName slug tenantId.hyphenated ∧
    (placementDatabaseName slug tenantId).utf8ByteSize ≤ 63 ∧
    Pattern.fullmatch Provisioner.pgIdentPattern (placementDatabaseName slug tenantId) = true := by
  have htext := hslug.text
  have htext' := hslug'.text
  have hascii : ∀ c ∈ databaseName slug.toList tenantId, c.toNat < 128 := by
    intro c hc
    have hname := isNameChar_of_mem_databaseName htext hc
    rw [isNameChar, Bool.or_eq_true, Bool.or_eq_true] at hname
    obtain (hname | hname) | hname := hname
    · have := toNat_of_isAsciiLowercase hname
      omega
    · have := toNat_of_isAsciiDigit hname
      omega
    · rw [beq_iff_eq.mp hname]
      decide
  rw [placementDatabaseName_eq htext, placementDatabaseName_eq htext',
    provisioner_placementDatabaseName_eq]
  refine ⟨?_, rfl, ?_, fullmatch_databaseName htext⟩
  · rw [← carried_eq_iff hne, ← databaseName_eq_iff htext htext', ne_eq, not_iff_not]
    exact ⟨String.ofList_injective, congrArg String.ofList⟩
  · rw [utf8ByteSize_ofList hascii]
    exact (length_databaseName htext).2

theorem placement_isolates_iff_short :
    placementDatabaseName "acme" 1 ≠ placementDatabaseName (String.ofList (List.replicate 63 'b')) 2 := by
  have hacme : ValidSlug "acme" := ⟨"acme", by decide⟩
  have hlong : ValidSlug (String.ofList (replicate 63 'b')) :=
    ⟨String.ofList (replicate 63 'b'), by decide⟩
  have hclash : ¬ Clash "acme" 1 (String.ofList (replicate 63 'b')) 2 := by
    unfold Clash
    decide
  exact (placement_isolates_iff hacme hlong (by decide)).1.mpr hclash

theorem fragment_of_lt (hlt : tenantId < 16 ^ 24) : fragment tenantId = List.replicate 8 '0' := by
  have hdigits : (Nat.toDigits 16 tenantId).length ≤ 24 :=
    (Nat.length_toDigits_le_iff (by decide) (by decide)).mpr hlt
  obtain ⟨k, hk⟩ : ∃ k, 32 - (Nat.toDigits 16 tenantId).length = 8 + k :=
    ⟨24 - (Nat.toDigits 16 tenantId).length, by omega⟩
  rw [fragment, Uuid.simple, hex, String.toList_ofList, hk, replicate_add, append_assoc]
  exact take_left' length_replicate

def demoRemainder : List Char := List.replicate 52 'a' ++ '-' :: List.replicate 8 '0'

theorem databaseName_demo {n : Nat} (hn : 61 < n) (hlt : tenantId < 16 ^ 24) :
    databaseName (String.ofList (List.replicate n 'a')).toList tenantId =
      't' :: '_' :: demoRemainder.map underscored := by
  have hlong : ¬ (replicate n 'a').length ≤ 61 := by
    rw [length_replicate]
    omega
  rw [databaseName_eq_carried, carried, String.toList_ofList, if_neg hlong, remainder,
    String.toList_ofList, take_replicate, fragment_of_lt hlt, min_eq_left (by omega)]
  rfl

/-- Two tenants whose slugs differ behind the 52nd character and whose ids begin alike, and one
whose slug spells out what is left of another's, share a database. -/
theorem placement_names_coincide :
    (∃ slug slug' tenantId tenantId', ValidSlug slug ∧ ValidSlug slug' ∧ slug ≠ slug' ∧
      tenantId ≠ tenantId' ∧ 61 < slug.length ∧ 61 < slug'.length ∧
      placementDatabaseName slug tenantId = placementDatabaseName slug' tenantId') ∧
    ∃ slug slug' tenantId tenantId', ValidSlug slug ∧ ValidSlug slug' ∧ slug ≠ slug' ∧
      tenantId ≠ tenantId' ∧ slug.length = 61 ∧ 61 < slug'.length ∧
      placementDatabaseName slug tenantId = placementDatabaseName slug' tenantId' := by
  have hlonger : ValidSlug (String.ofList (replicate 63 'a')) :=
    ⟨String.ofList (replicate 63 'a'), by decide⟩
  have hlong : ValidSlug (String.ofList (replicate 62 'a')) :=
    ⟨String.ofList (replicate 62 'a'), by decide⟩
  have hfits : ValidSlug (String.ofList demoRemainder) :=
    ⟨String.ofList demoRemainder, by decide⟩
  have hname {tenantId : Uuid} (hlt : tenantId < 16 ^ 24) :
      placementDatabaseName (String.ofList (replicate 63 'a')) tenantId =
        String.ofList ('t' :: '_' :: demoRemainder.map underscored) := by
    rw [placementDatabaseName_eq hlonger.text, databaseName_demo (by decide) hlt]
  constructor
  · refine ⟨_, _, 0x00000000000040008000000000000000, 0x00000000000040008000000000000001, hlong,
      hlonger, by decide, by decide, by decide, by decide, ?_⟩
    rw [hname (by decide), placementDatabaseName_eq hlong.text, databaseName_demo (by decide) (by decide)]
  · refine ⟨_, _, 0x10000000000040008000000000000000, 0x00000000000040008000000000000001, hfits,
      hlonger, by decide, by decide, by decide, by decide, ?_⟩
    have hwhole : (String.ofList demoRemainder).toList.length ≤ 61 := by decide
    rw [hname (by decide), placementDatabaseName_eq hfits.text, databaseName_eq_carried, carried,
      if_pos hwhole, String.toList_ofList]

end ControlPlane
