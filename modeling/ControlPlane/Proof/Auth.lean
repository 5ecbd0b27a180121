import ControlPlane.Auth
import ControlPlane.Proof.Placement

/-!
# Tenant scope and sessions

What the guard accepts has no escape in it, so guard and handler read the same text; and no tenant
is stored under a text that normalising would change.
-/

namespace ControlPlane.Auth

open List Text

variable {state : AppState} {now : Instant} {path raw slug : String} {cs : List Char} {c : Char}
  {identity : Identity} {request : Request} {headers : Headers}

theorem head?_splitOn (sep : Char) (cs : List Char) :
    (cs.splitOn sep).head? = some (cs.takeWhile (· ≠ sep)) := by
  induction cs with
  | nil => rfl
  | cons c rest ih =>
    rw [splitOn_cons_eq_if_modifyHead, takeWhile_cons]
    by_cases heq : c = sep
    · simp [heq]
    · simp [heq, head?_modifyHead, ih]

theorem head?_segments (hne : cs.takeWhile (· ≠ '/') ≠ []) :
    (((cs.splitOn '/').filter (· ≠ [])).map String.ofList).head? =
      some (String.ofList (cs.takeWhile (· ≠ '/'))) := by
  have hhead := head?_splitOn '/' cs
  cases hsplit : cs.splitOn '/' with
  | nil => simp [hsplit] at hhead
  | cons first rest =>
    rw [hsplit, head?_cons, Option.some.injEq] at hhead
    rw [← hhead] at hne ⊢
    simp only [filter_cons, decide_eq_true_eq, if_pos hne, map_cons, head?_cons]

theorem tenantSlugFromPath_of_slugSegment (hsegment : slugSegment path = some raw) :
    tenantSlugFromPath path = some raw := by
  obtain ⟨hmap, hne⟩ := Option.filter_eq_some_iff.mp hsegment
  obtain ⟨rest, hrest, rfl⟩ := Option.map_eq_some_iff.mp hmap
  have hnonempty : rest.toList.takeWhile (· ≠ '/') ≠ [] := by
    intro hnil
    rw [hnil] at hne
    exact absurd hne (by decide)
  have hsegments := head?_segments hnonempty
  rcases Option.or_eq_some_iff.mp hrest with hstrip | ⟨-, hstrip⟩
  · have hsplit : path.toList.splitOn '/' =
        [] :: "tenants".toList :: rest.toList.splitOn '/' := by
      rw [toList_of_strip hstrip]
      rfl
    unfold tenantSlugFromPath
    rw [hsplit]
    exact hsegments
  · have hsplit : path.toList.splitOn '/' =
        [] :: "api".toList :: "v1".toList :: "tenants".toList :: rest.toList.splitOn '/' := by
      rw [toList_of_strip hstrip]
      rfl
    unfold tenantSlugFromPath
    rw [hsplit]
    exact hsegments

theorem percentDecodeBytes_of_no_escape (hcs : '%' ∉ cs) :
    percentDecodeBytes cs = cs.flatMap String.utf8EncodeChar := by
  fun_induction percentDecodeBytes cs with
  | case1 => rfl
  | case2 => simp at hcs
  | case3 c high low rest _ ih | case4 c rest _ ih =>
    rw [flatMap_cons, ← ih (fun hmem => hcs (mem_cons_of_mem _ hmem))]

theorem percentDecode_of_no_escape (hraw : '%' ∉ raw.toList) : percentDecode raw = some raw := by
  rw [percentDecode, percentDecodeBytes_of_no_escape hraw, fromUtf8_encoded]

theorem eq_of_slug (hslug : Validation.slug raw = .ok slug) :
    slug = toAsciiLowercase (trim raw) := by
  unfold Validation.slug at hslug
  simp only at hslug
  split_ifs at hslug
  exact (Except.ok.inj hslug).symm

theorem mem_dropWhile_of_not {α : Type} {p : α → Bool} {x : α} {xs : List α} (hmem : x ∈ xs)
    (hx : p x = false) : x ∈ xs.dropWhile p := by
  rw [← takeWhile_append_dropWhile (p := p) (l := xs)] at hmem
  rcases mem_append.mp hmem with htake | hdrop
  · rw [mem_takeWhile_imp htake] at hx
    cases hx
  · exact hdrop

theorem mem_trim (hmem : c ∈ raw.toList) (hc : isWhitespace c = false) :
    c ∈ (trim raw).toList := by
  unfold trim
  rw [String.toList_ofList, mem_reverse]
  apply mem_dropWhile_of_not _ hc
  rw [mem_reverse]
  exact mem_dropWhile_of_not hmem hc

theorem no_escape_of_slug (hslug : Validation.slug raw = .ok slug) : '%' ∉ raw.toList := by
  intro hmem
  have htext := ValidSlug.text ⟨raw, hslug⟩
  have hlower : '%' ∈ slug.toList := by
    rw [eq_of_slug hslug, toAsciiLowercase, String.toList_ofList]
    exact mem_map.mpr ⟨'%', mem_trim hmem (by decide), by decide⟩
  exact absurd (htext.chars '%' hlower) (by decide)

theorem toAsciiLowercase_eq_self (hs : ∀ c ∈ raw.toList, isSlugChar c = true) :
    toAsciiLowercase raw = raw := by
  unfold toAsciiLowercase
  rw [map_congr_left (g := id), map_id, String.ofList_toList]
  intro c hc
  have hnat := toNat_of_isSlugChar (hs c hc)
  unfold Char.toLower
  rw [dif_neg]
  · rfl
  · rintro ⟨hle, hge⟩
    have hA : 65 ≤ c.toNat := hle
    have hZ : c.toNat ≤ 90 := hge
    omega

theorem isSlugChar_of_mem (hc : c ∈ Pattern.range 'a' 'z' ++ Pattern.range '0' '9' ++ ['-']) :
    isSlugChar c = true := by
  simp only [mem_append, Pattern.mem_range (show 'z'.toNat < 0xD800 by decide),
    Pattern.mem_range (show '9'.toNat < 0xD800 by decide), mem_singleton] at hc
  simpa [isSlugChar, isAsciiLowercase, isAsciiDigit] using hc

theorem isSlugChar_of_stored (tenant : TenantRow) : ∀ c ∈ tenant.slug.toList, isSlugChar c = true := by
  have hmatch := Pattern.fullmatch_iff.mp tenant.slug_ck
  obtain ⟨first, hfirst, rest, hrest, hslug⟩ := Language.mem_mul.mp hmatch
  obtain ⟨d, hd, rfl⟩ := Pattern.mem_oneOf.mp hfirst
  obtain ⟨-, -, hall⟩ := (Pattern.mem_between_oneOf (by decide)).mp hrest
  intro c hc
  rw [← hslug] at hc
  rcases mem_cons.mp hc with rfl | hc
  · exact isSlugChar_of_mem (mem_append_left _ hd)
  · exact isSlugChar_of_mem (hall c hc)

theorem isWhitespace_of_isSlugChar (hc : isSlugChar c = true) : isWhitespace c = false := by
  have hnat := toNat_of_isSlugChar hc
  simp only [isWhitespace, decide_eq_false_iff_not]
  omega

theorem normalise_stored (tenant : TenantRow) (hslug : Validation.slug tenant.slug = .ok slug) :
    slug = tenant.slug := by
  have hchars := isSlugChar_of_stored tenant
  have htrim : trim tenant.slug = tenant.slug :=
    trim_eq_self fun c hc => isWhitespace_of_isSlugChar (hchars c hc)
  rw [eq_of_slug hslug, htrim, toAsciiLowercase_eq_self hchars]

theorem slug_of_tenantBySlug {tenant : TenantRow} (hfound : state.tenantBySlug slug = .ok tenant) :
    tenant.slug = slug := by
  unfold AppState.tenantBySlug at hfound
  split at hfound
  · rename_i found hfind
    obtain rfl := Except.ok.inj hfound
    simpa using find?_some hfind
  · cases hfound

theorem tenantBySlug_of_requireTenantAccess {scope : Uuid}
    (hguard : requireTenantAccess state identity path = .ok ())
    (hlevel : identity.isPlatformLevel = false) (hscope : identity.tenantScope = some scope)
    (hpath : tenantSlugFromPath path = some raw) :
    ∃ slug tenant, Validation.slug raw = .ok slug ∧ state.tenantBySlug slug = .ok tenant ∧
      tenant.id = scope := by
  unfold requireTenantAccess at hguard
  rw [hpath] at hguard
  cases hslug : Validation.slug raw with
  | error e => simp [hslug, bind, Except.bind] at hguard
  | ok slug =>
    cases htenant : state.tenantBySlug slug with
    | error e => simp [hslug, hlevel, hscope, htenant, bind, Except.bind] at hguard
    | ok tenant =>
      refine ⟨slug, tenant, rfl, htenant, ?_⟩
      by_contra hne
      simp [hslug, hlevel, hscope, htenant, Ne.symm hne, bind, Except.bind] at hguard

theorem scope_of_resolveIdentity {headers : Headers} {username : String} {tenantId : Option Uuid}
    {viaSession mobileSession : Bool} (hidentity : resolveIdentity state now headers =
      .ok (.account username .tenantOperator tenantId viaSession mobileSession)) :
    ∃ scope, tenantId = some scope := by
  unfold resolveIdentity at hidentity
  split at hidentity
  · split_ifs at hidentity
    cases hidentity
  · split at hidentity
    · cases hidentity
    · rename_i token _
      cases hsession : state.resolveSession now (state.hashToken token) with
      | error e => simp [hsession, bind, Except.bind] at hidentity
      | ok found =>
        obtain ⟨account, isMobile⟩ := found
        obtain ⟨-, hrole, rfl, -, -⟩ : account.username = username ∧
            roleOf account.role = .tenantOperator ∧ account.tenantId = tenantId ∧
              true = viaSession ∧ isMobile = mobileSession := by
          simpa [hsession, bind, Except.bind, pure, Except.pure] using hidentity
        rcases account.role_scope_ck with ⟨hplatform, -⟩ | ⟨-, hscoped⟩
        · rcases hplatform with hadmin | hviewer
          · simp [hadmin, roleOf] at hrole
          · simp [hviewer, roleOf] at hrole
        · exact Option.ne_none_iff_exists'.mp hscoped

theorem authenticate_eq_ok (hauth : authenticate state now request = .ok identity) :
    resolveIdentity state now request.headers = .ok identity ∧
      (identity.isReadOnly = true → safeMethod request.method = true) := by
  unfold authenticate at hauth
  cases hresolve : resolveIdentity state now request.headers with
  | error e => simp [hresolve, bind, Except.bind] at hauth
  | ok found =>
    simp only [hresolve, bind, Except.bind] at hauth
    split_ifs at hauth with hreadonly hcsrf
    · obtain rfl := Except.ok.inj hauth
      refine ⟨rfl, fun hro => ?_⟩
      simpa [hro] using hreadonly

theorem letThrough_eq_ok (hpassed : letThrough state now request = .ok identity) :
    authenticate state now request = .ok identity ∧
      requireTenantAccess state identity request.path = .ok () := by
  unfold letThrough at hpassed
  cases hauth : authenticate state now request with
  | error e => simp [hauth, bind, Except.bind] at hpassed
  | ok found =>
    cases hguard : requireTenantAccess state found request.path with
    | error e => simp [hauth, hguard, bind, Except.bind] at hpassed
    | ok _ =>
      obtain rfl : found = identity := by
        simpa [hauth, hguard, bind, Except.bind, pure, Except.pure] using hpassed
      exact ⟨rfl, hguard⟩

/-- An operator of a tenant reaches no other tenant, however the handler looks the slug up, and an
account that may only read reaches no handler with a request that changes something. -/
theorem scope_kept (state : AppState) (now : Instant) (request : Request) :
    (∀ username tenantId viaSession mobileSession,
      letThrough state now request = .ok (.account username .tenantOperator tenantId viaSession mobileSession) →
      ∃ scope, tenantId = some scope ∧
        ∀ slug, slugParameter request.path = some slug → ∀ tenant,
          resolvesExactly state slug = .ok tenant ∨ resolvesNormalised state slug = .ok tenant →
          tenant.id = scope) ∧
    ∀ username tenantId viaSession mobileSession,
      authenticate state now request =
        .ok (.account username .platformViewer tenantId viaSession mobileSession) →
      request.method = .get ∨ request.method = .head ∨ request.method = .options := by
  constructor
  · intro username tenantId viaSession mobileSession hpassed
    obtain ⟨hauth, hguard⟩ := letThrough_eq_ok hpassed
    obtain ⟨scope, rfl⟩ := scope_of_resolveIdentity (authenticate_eq_ok hauth).1
    refine ⟨scope, rfl, fun slug hparameter tenant hresolves => ?_⟩
    obtain ⟨segment, hsegment, hdecode⟩ := Option.bind_eq_some_iff.mp hparameter
    obtain ⟨normal, own, hslug, hown, rfl⟩ := tenantBySlug_of_requireTenantAccess hguard rfl rfl
      (tenantSlugFromPath_of_slugSegment hsegment)
    -- what the guard has accepted is what the handler gets
    obtain rfl : segment = slug := by
      rw [percentDecode_of_no_escape (no_escape_of_slug hslug)] at hdecode
      exact Option.some.inj hdecode
    have hsame : state.tenantBySlug normal = .ok tenant := by
      rcases hresolves with hexact | hnormalised
      · have hstored := slug_of_tenantBySlug hexact
        rw [← hstored] at hslug hexact
        rwa [normalise_stored tenant hslug]
      · simpa [resolvesNormalised, hslug, bind, Except.bind] using hnormalised
    rw [hown] at hsame
    rw [Except.ok.inj hsame]
  · intro username tenantId viaSession mobileSession hauth
    have hsafe := (authenticate_eq_ok hauth).2 rfl
    simpa [safeMethod, or_assoc] using hsafe

def acme : TenantRow := ⟨1, "acme", by decide⟩

def beta : TenantRow := ⟨2, "beta", by decide⟩

def demoGate : AppState where
  adminTokenHash := [0]
  hashToken token := token.toList.map fun c => UInt8.ofNat c.toNat
  tenants := [acme, beta]
  slug_unique := by decide
  accounts :=
    [⟨1, "olga", "tenant_operator", some 1, true, .inr ⟨rfl, by simp⟩⟩,
      ⟨2, "vera", "platform_viewer", none, true, .inl ⟨.inr rfl, rfl⟩⟩]
  sessions := [⟨[97], 1, 100, false⟩, ⟨[98], 2, 100, false⟩]

def demoRequest (method : Method) (path token : String) : Request where
  method := method
  path := path
  headers := ⟨[("cookie", ⟨(sessionCookie ++ "=" ++ token).toList.map fun c => UInt8.ofNat c.toNat⟩)]⟩

theorem scope_kept_for_acme :
    (∃ scope, some 1 = some scope ∧
      ∀ slug, slugParameter "/tenants/ACME/audit" = some slug → ∀ tenant,
        resolvesExactly demoGate slug = .ok tenant ∨ resolvesNormalised demoGate slug = .ok tenant →
        tenant.id = scope) ∧
    (resolvesNormalised demoGate "ACME").toOption.map (·.id) = some 1 ∧
    slugParameter "/tenants/ACME/audit" = some "ACME" ∧
    letThrough demoGate 0 (demoRequest .get "/tenants/beta/audit" "a") = .error .notFound ∧
    authenticate demoGate 0 (demoRequest .get "/tenants/beta/audit" "b") =
      .ok (.account "vera" .platformViewer none true false) := by
  have hpassed : letThrough demoGate 0 (demoRequest .get "/tenants/ACME/audit" "a") =
      .ok (.account "olga" .tenantOperator (some 1) true false) := by decide
  exact ⟨(scope_kept demoGate 0 _).1 "olga" (some 1) true false hpassed, by decide,
    by decide, by decide, by decide⟩

/-! ### Logging out -/

end ControlPlane.Auth
