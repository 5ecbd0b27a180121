import ControlPlane.Proof.Texts
import ControlPlane.Provisioner.Files

/-!
# Plans that have passed

What a plan that `safe_plan` has let through tells the steps after it.
-/

namespace ControlPlane.Provisioner

open RegularExpression

open Pattern (fullmatch)
open Python (Plain)

variable {β : Type} {α : Type} {f : α → Except Exn β} {b : β} {a : α}

theorem exists_of_bind_ok {x : Except Exn α} (h : (x >>= f) = .ok b) :
    ∃ a, x = .ok a ∧ f a = .ok b := by
  cases x with
  | error e => cases h
  | ok a => exact ⟨a, rfl, h⟩

theorem bind_of_ok {x : Except Exn α} (h : x = .ok a) : (x >>= f) = f a := by
  rw [h]
  rfl

theorem ok_bind : (Except.ok a >>= f) = f a := rfl

variable {detail : String} {passes : Bool}

theorem check_eq_ok {u : Unit} : check passes detail = .ok u ↔ passes = true := by
  unfold check
  cases passes <;> simp

theorem check_of (h : passes = true) : check passes detail = .ok () :=
  check_eq_ok.mpr h

variable {s : String} {value : Json} {x : Except Exn Unit}

theorem matching_eq_ok {pattern : RegularExpression Char} :
    matching pattern detail value = .ok s ↔ value = .str s ∧ fullmatch pattern s = true := by
  cases value with
  | str t =>
    by_cases hmatch : fullmatch pattern t = true
    · rw [matching, if_pos hmatch, Except.ok.injEq, Json.str.injEq]
      exact ⟨fun h => ⟨h, h ▸ hmatch⟩, And.left⟩
    · rw [matching, if_neg hmatch, Json.str.injEq]
      refine ⟨nofun, ?_⟩
      rintro ⟨rfl, h⟩
      exact absurd h hmatch
  | _ => simp [matching]

def namedTenant (job : Json) : Json :=
  if truthy (item "tenantId" (item "plan" job)) then item "tenantId" (item "plan" job)
  else item "tenantId" job

def identified (job : Json) (tenantId : String) : Json :=
  (item "plan" job).set "tenantId" (.str tenantId)

def schemaOf (job : Json) : Option Int := (item "schema" (item "plan" job)).asInt

structure Passes (py : Python.Runtime) (job : Json) (tenantId slug country desired placement : String) :
    Prop where
  mode : isObject (item "plan" job) = true ∧
    (item "mode" (item "plan" job)).asStr = some "local_docker_compose"
  schema : schemaOf job = some 3 ∨ schemaOf job = some 4 ∨ schemaOf job = some 5
  tenantNamed : namedTenant job = .str tenantId ∧ fullmatch tenantIdPattern tenantId = true
  slugNamed : item "tenantSlug" (identified job tenantId) = .str slug ∧ fullmatch slugPattern slug = true
  identity : (item "composeProject" (identified job tenantId)).asStr = some ("crowdrelay-" ++ slug) ∧
    (item "workspaceSlug" (identified job tenantId)).asStr = some slug
  displayName : ((item "displayName" (identified job tenantId)).asStr.any fun name =>
    2 ≤ name.length && name.length ≤ 120 && !hasAny lineBreakers name) = true
  countryNamed : item "defaultCountryCode" (identified job tenantId) = .str country ∧
    fullmatch countryPattern country = true
  desiredNamed : item "desiredVersion" (identified job tenantId) = .str desired ∧
    fullmatch shaTagPattern desired = true
  images : safeImageRef (item "apiImage" (identified job tenantId)) desired = true ∧
    safeImageRef (item "workerImage" (identified job tenantId)) desired = true
  baseUrl : safeHttpsOrigin py (item "crowdRelayBaseUrl" (identified job tenantId)) = true
  siteUrl : isNone (item "publicSiteBaseUrl" (identified job tenantId)) = true ∨
    safeHttpsOrigin py (item "publicSiteBaseUrl" (identified job tenantId)) = true
  origins : ∃ origins, item "allowedOrigins" (identified job tenantId) = .arr origins ∧
    origins.all (safeHttpsOrigin py) = true
  palette : isNone (item "brandingPalette" (identified job tenantId)) = false →
    checkPalette (item "brandingPalette" (identified job tenantId)) = .ok ()
  members : checkMembers py (item "teamMembers" (identified job tenantId)) = .ok ()
  providers : checkProviderKeys (item "providerKeys" (identified job tenantId)) = .ok ()
  profile : schemaOf job ≠ some 3 →
    checkProfile country (item "regionalProfile" (identified job tenantId)) = .ok ()
  placed : if schemaOf job = some 5 then
      checkPlacement slug tenantId (identified job tenantId) = .ok placement
    else placement = "dedicated"

theorem of_optional {c : Prop} [Decidable c] {f : Unit → Except Exn β}
    (h : (if c then f () else x >>= f) = .ok b) : (¬ c → x = .ok ()) ∧ f () = .ok b := by
  by_cases hc : c
  · rw [if_pos hc] at h
    exact ⟨fun hn => absurd hc hn, h⟩
  · rw [if_neg hc] at h
    obtain ⟨u, hx, hf⟩ := exists_of_bind_ok h
    exact ⟨fun _ => hx, hf⟩

theorem optional_of {c : Prop} [Decidable c] {f : Unit → Except Exn β} (hx : ¬ c → x = .ok ()) :
    (if c then f () else x >>= f) = f () := by
  by_cases hc : c
  · rw [if_pos hc]
  · rw [if_neg hc, hx hc, ok_bind]

variable {py : Python.Runtime} {job plan : Json} {tenantId slug country desired placement : String}
  {name : String}

theorem safePlan_of_passes (h : Passes py job tenantId slug country desired placement) :
    safePlan py job = .ok ((identified job tenantId).set "placement" (.str placement)) := by
  obtain ⟨origins, horigins, hall⟩ := h.origins
  have hschema : [some 3, some 4, some 5].contains (schemaOf job) = true := by
    rcases h.schema with hs | hs | hs <;> rw [hs] <;> decide
  have hpalette : ¬ isNone (item "brandingPalette" (identified job tenantId)) = true →
      checkPalette (item "brandingPalette" (identified job tenantId)) = .ok () := fun hnone =>
    h.palette (by simpa using hnone)
  refine (bind_of_ok (check_of (by simp [h.mode]))).trans ?_
  refine (bind_of_ok (check_of hschema)).trans ?_
  refine (bind_of_ok (matching_eq_ok.mpr h.tenantNamed)).trans ?_
  refine (bind_of_ok (matching_eq_ok.mpr h.slugNamed)).trans ?_
  refine (bind_of_ok (check_of (by simpa [identified] using h.identity))).trans ?_
  refine (bind_of_ok (check_of h.displayName)).trans ?_
  refine (bind_of_ok (matching_eq_ok.mpr h.countryNamed)).trans ?_
  refine (bind_of_ok (matching_eq_ok.mpr h.desiredNamed)).trans ?_
  refine (bind_of_ok (check_of (by simpa [identified] using h.images))).trans ?_
  refine (bind_of_ok (check_of h.baseUrl)).trans ?_
  refine (bind_of_ok (check_of (by simpa [identified] using h.siteUrl))).trans ?_
  rw [show (item "plan" job).set "tenantId" (.str tenantId) = identified job tenantId from rfl, horigins]
  refine (bind_of_ok (check_of hall)).trans ((optional_of hpalette).trans ?_)
  refine (bind_of_ok h.members).trans ((bind_of_ok h.providers).trans ((optional_of h.profile).trans ?_))
  have hplaced := h.placed
  change (if schemaOf job = some 5 then _ else _) = _
  by_cases hfive : schemaOf job = some 5
  · rw [if_pos hfive] at hplaced ⊢
    exact bind_of_ok hplaced
  · rw [if_neg hfive] at hplaced ⊢
    rw [hplaced]
    rfl

theorem safePlan_eq_ok : safePlan py job = .ok plan ↔ ∃ tenantId slug country desired placement,
    Passes py job tenantId slug country desired placement ∧
      plan = (identified job tenantId).set "placement" (.str placement) := by
  constructor
  · intro h
    obtain ⟨_, hmode, h⟩ := exists_of_bind_ok h
    obtain ⟨_, hschema, h⟩ := exists_of_bind_ok h
    obtain ⟨tenantId, htenant, h⟩ := exists_of_bind_ok h
    obtain ⟨slug, hslug, h⟩ := exists_of_bind_ok h
    obtain ⟨_, hidentity, h⟩ := exists_of_bind_ok h
    obtain ⟨_, hname, h⟩ := exists_of_bind_ok h
    obtain ⟨country, hcountry, h⟩ := exists_of_bind_ok h
    obtain ⟨desired, hdesired, h⟩ := exists_of_bind_ok h
    obtain ⟨_, himages, h⟩ := exists_of_bind_ok h
    obtain ⟨_, hbase, h⟩ := exists_of_bind_ok h
    obtain ⟨_, hsite, h⟩ := exists_of_bind_ok h
    cases horigins : item "allowedOrigins" ((item "plan" job).set "tenantId" (.str tenantId)) with
    | arr origins =>
      rw [horigins] at h
      obtain ⟨_, hall, h⟩ := exists_of_bind_ok h
      obtain ⟨hpalette, h⟩ := of_optional h
      obtain ⟨_, hmembers, h⟩ := exists_of_bind_ok h
      obtain ⟨_, hproviders, h⟩ := exists_of_bind_ok h
      obtain ⟨hprofile, h⟩ := of_optional h
      have hplaced : ∃ placement, (if schemaOf job = some 5 then
          checkPlacement slug tenantId (identified job tenantId) = .ok placement
          else placement = "dedicated") ∧
          plan = (identified job tenantId).set "placement" (.str placement) := by
        change (if schemaOf job = some 5 then _ else _) = _ at h
        by_cases hfive : schemaOf job = some 5
        · rw [if_pos hfive] at h
          obtain ⟨placement, hplacement, h⟩ := exists_of_bind_ok h
          exact ⟨placement, by rwa [if_pos hfive], (Except.ok.inj h).symm⟩
        · rw [if_neg hfive] at h
          exact ⟨"dedicated", by rw [if_neg hfive], (Except.ok.inj h).symm⟩
      obtain ⟨placement, hplacement, rfl⟩ := hplaced
      refine ⟨tenantId, slug, country, desired, placement, ?_, rfl⟩
      exact
        { mode := by simpa using check_eq_ok.mp hmode
          schema := by simpa [schemaOf] using check_eq_ok.mp hschema
          tenantNamed := matching_eq_ok.mp htenant
          slugNamed := matching_eq_ok.mp hslug
          identity := by simpa [identified] using check_eq_ok.mp hidentity
          displayName := check_eq_ok.mp hname
          countryNamed := matching_eq_ok.mp hcountry
          desiredNamed := matching_eq_ok.mp hdesired
          images := by simpa [identified] using check_eq_ok.mp himages
          baseUrl := check_eq_ok.mp hbase
          siteUrl := by simpa [identified] using check_eq_ok.mp hsite
          origins := ⟨origins, horigins, check_eq_ok.mp hall⟩
          palette := fun hnone => hpalette (by simpa [identified] using hnone)
          members := hmembers
          providers := hproviders
          profile := hprofile
          placed := hplacement }
    | _ =>
      rw [horigins] at h
      cases h
  · rintro ⟨tenantId, slug, country, desired, placement, hpasses, rfl⟩
    exact safePlan_of_passes hpasses

structure Placed (base : Json) (slug placement : String) (plan : Json) : Prop where
  object : isObject base = true
  named : item "tenantSlug" base = .str slug
  matched : fullmatch slugPattern slug = true
  built : plan = base.set "placement" (.str placement)
  placed : placement = "dedicated" ∨ placement = "shared_pg" ∧
    isMatch dockerNamePattern (item "host" (item "sharedPg" base)) = true ∧
    isMatch pgIdentPattern (item "database" (item "sharedPg" base)) = true

theorem checkPlacement_ok {slug tenantId placement : String} {plan : Json}
    (h : checkPlacement slug tenantId plan = .ok placement) :
    placement = "dedicated" ∨ placement = "shared_pg" ∧
      isMatch dockerNamePattern (item "host" (item "sharedPg" plan)) = true ∧
      isMatch pgIdentPattern (item "database" (item "sharedPg" plan)) = true := by
  unfold checkPlacement at h
  split at h
  · obtain ⟨_, _, h⟩ := exists_of_bind_ok h
    cases h
    exact .inl rfl
  · obtain ⟨_, _, h⟩ := exists_of_bind_ok h
    obtain ⟨_, hhost, h⟩ := exists_of_bind_ok h
    obtain ⟨_, _, h⟩ := exists_of_bind_ok h
    obtain ⟨database, hdatabase, h⟩ := exists_of_bind_ok h
    obtain ⟨_, _, h⟩ := exists_of_bind_ok h
    cases h
    obtain ⟨hdatabase, hpattern⟩ := matching_eq_ok.mp hdatabase
    exact .inr ⟨rfl, check_eq_ok.mp hhost, by simp [isMatch, hdatabase, Json.asStr, hpattern]⟩
  · cases h

theorem isObject_set {document : Json} (hobject : isObject document = true) :
    isObject (document.set name value) = true := by
  cases document with
  | obj members => rfl
  | _ => cases hobject

theorem safePlan_placed (h : safePlan py job = .ok plan) :
    ∃ base slug placement, Placed base slug placement plan := by
  obtain ⟨tenantId, slug, country, desired, placement, hpasses, rfl⟩ := safePlan_eq_ok.mp h
  refine ⟨identified job tenantId, slug, placement, isObject_set hpasses.mode.1, hpasses.slugNamed.1,
    hpasses.slugNamed.2, rfl, ?_⟩
  have hplaced := hpasses.placed
  by_cases hfive : schemaOf job = some 5
  · rw [if_pos hfive] at hplaced
    exact checkPlacement_ok hplaced
  · rw [if_neg hfive] at hplaced
    exact .inl hplaced

theorem fullmatch_tenantId : fullmatch tenantIdPattern s = true ↔
    s.toList.length = 36 ∧ ∀ c ∈ s.toList, c ∈ hexdigit ++ ['-'] := by
  rw [Pattern.fullmatch_iff, tenantIdPattern, Pattern.mem_times_oneOf]

theorem fullmatch_shaTag : fullmatch shaTagPattern s = true ↔
    ∃ digest, s.toList = "sha-".toList ++ digest ∧ digest.length = 40 ∧ ∀ c ∈ digest, c ∈ hexdigit := by
  rw [Pattern.fullmatch_iff, shaTagPattern, matches'_mul, Language.mem_mul]
  constructor
  · rintro ⟨tag, htag, digest, hdigest, heq⟩
    rw [Pattern.mem_literal.mp htag] at heq
    exact ⟨digest, heq.symm, Pattern.mem_times_oneOf.mp hdigest⟩
  · rintro ⟨digest, heq, hdigest⟩
    exact ⟨"sha-".toList, Pattern.mem_literal.mpr rfl, digest, Pattern.mem_times_oneOf.mpr hdigest, heq.symm⟩

theorem fullmatch_image {name tag : List Char} (hs : s.toList = name ++ ':' :: tag)
    (hname : name ≠ [] ∧ ∀ c ∈ name, c ∈ alphanumeric ++ ['.', '/', '_', '-'])
    (htag : tag ≠ [] ∧ ∀ c ∈ tag, c ∈ alphanumeric ++ ['.', '_', '-']) :
    fullmatch imagePattern s = true := by
  rw [Pattern.fullmatch_iff, imagePattern, matches'_mul, Language.mem_mul]
  refine ⟨name, Pattern.mem_plus_oneOf.mpr hname, ':' :: tag, ?_, hs.symm⟩
  exact ⟨[':'], Pattern.mem_literal.mpr rfl, tag, Pattern.mem_plus_oneOf.mpr htag, rfl⟩

variable {base : Json}

theorem Placed.item_eq (hplaced : Placed base slug placement plan) (hname : name ≠ "placement") :
    item name plan = item name base := by
  rw [hplaced.built, item, item, Json.get_set_of_ne hname]

theorem Placed.item_placement (hplaced : Placed base slug placement plan) :
    item "placement" plan = .str placement := by
  have hobject := hplaced.object
  rw [hplaced.built]
  cases base with
  | obj members => simp [item, Json.set, Json.get]
  | _ => cases hobject

theorem Placed.slugOf_eq (hplaced : Placed base slug placement plan) : slugOf plan = slug := by
  rw [slugOf, hplaced.item_eq (by decide), hplaced.named]
  rfl

theorem mem_slugPattern (hslug : fullmatch slugPattern slug = true) :
    2 ≤ slug.toList.length ∧ ∀ c ∈ slug.toList, c ∈ lowercase ++ digit ++ ['-'] := by
  rw [Pattern.fullmatch_iff, slugPattern, matches'_mul, Language.mem_mul] at hslug
  obtain ⟨first, hfirst, rest, hrest, heq⟩ := hslug
  obtain ⟨c, hc, rfl⟩ := Pattern.mem_oneOf.mp hfirst
  obtain ⟨hlength, _, hall⟩ := (Pattern.mem_between_oneOf (by decide)).mp hrest
  rw [← heq]
  refine ⟨by simpa using hlength, ?_⟩
  intro d hd
  rcases List.mem_cons.mp hd with rfl | hd
  · exact List.mem_append_left _ hc
  · exact hall d hd

theorem Placed.insideRoot (hplaced : Placed base slug placement plan) :
    insideRoot (slugOf plan) = true := by
  obtain ⟨hlength, hall⟩ := mem_slugPattern hplaced.matched
  have hslash : '/' ∉ slug.toList := fun h => absurd (hall _ h) (by decide)
  have hdot : '.' ∉ slug.toList := fun h => absurd (hall _ h) (by decide)
  have hempty : slug ≠ "" := by
    rintro rfl
    simp at hlength
  have hself : slug ≠ "." := by
    rintro rfl
    exact hdot (by decide)
  have hparent : slug ≠ ".." := by
    rintro rfl
    exact hdot (by decide)
  rw [hplaced.slugOf_eq]
  simp [Provisioner.insideRoot, hempty, hself, hparent, hslash]

def PlainName (name : List Char) : Prop := name ≠ [] ∧ Plain name

instance {name : List Char} : Decidable (PlainName name) := inferInstanceAs (Decidable (_ ∧ _))

theorem plainName_docker (hvalue : isMatch dockerNamePattern value = true) :
    PlainName (chars value) := by
  cases value with
  | str s =>
    have hmatch : fullmatch dockerNamePattern s = true := hvalue
    rw [Pattern.fullmatch_iff, dockerNamePattern, matches'_mul, Language.mem_mul]
      at hmatch
    obtain ⟨first, hfirst, rest, hrest, heq⟩ := hmatch
    obtain ⟨c, hc, rfl⟩ := Pattern.mem_oneOf.mp hfirst
    have hall := ((Pattern.mem_between_oneOf (by decide)).mp hrest).2.2
    have hchars : chars (.str s) = [c] ++ rest := heq.symm
    rw [hchars]
    refine ⟨by simp, fun d hd => ?_⟩
    have hplain : ∀ e ∈ alphanumeric ++ ['_', '.', '-'], Python.isLineBreak e = false := by
      decide
    rcases List.mem_cons.mp hd with rfl | hd
    · exact hplain _ (List.mem_append_left _ hc)
    · exact hplain d (hall d hd)
  | _ => cases hvalue

theorem plainName_pgIdent (hvalue : isMatch pgIdentPattern value = true) :
    PlainName (chars value) := by
  cases value with
  | str s =>
    have hmatch : fullmatch pgIdentPattern s = true := hvalue
    rw [Pattern.fullmatch_iff, pgIdentPattern, matches'_mul, Language.mem_mul] at hmatch
    obtain ⟨first, hfirst, rest, hrest, heq⟩ := hmatch
    have hall := ((Pattern.mem_between_oneOf (by decide)).mp hrest).2.2
    have hchars : chars (.str s) = "t_".toList ++ rest := by
      rw [← Pattern.mem_literal.mp hfirst]
      exact heq.symm
    rw [hchars]
    refine ⟨by simp, fun d hd => ?_⟩
    rcases List.mem_append.mp hd with hd | hd
    · exact (by decide : ∀ e ∈ "t_".toList, Python.isLineBreak e = false) d hd
    · exact (by decide : ∀ e ∈ lowercase ++ digit ++ ['_'], Python.isLineBreak e = false) d
        (hall d hd)
  | _ => cases hvalue

theorem Placed.database (hplaced : Placed base slug placement plan) :
    PlainName (database plan).1 ∧ PlainName (database plan).2 := by
  have hshared : item "sharedPg" plan = item "sharedPg" base := hplaced.item_eq (by decide)
  unfold Provisioner.database
  rw [hplaced.item_placement, hshared]
  rcases hplaced.placed with rfl | ⟨rfl, hhost, hname⟩
  · rw [if_neg (by decide)]
    exact ⟨by decide, by decide⟩
  · rw [if_pos (show (Json.str "shared_pg").asStr = some "shared_pg" from rfl)]
    exact ⟨plainName_pgIdent hname, plainName_docker hhost⟩

end ControlPlane.Provisioner
