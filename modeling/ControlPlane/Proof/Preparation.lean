import ControlPlane.Proof.EnvText
import ControlPlane.Proof.Plans
import ControlPlane.Proof.Ports

/-!
# Preparations that are interrupted

`write_once` never looks into a file that exists, so that all later attempts live with what a killed
one has written: they succeed if that was nothing or all of it.
-/

namespace ControlPlane.Provisioner

open Interleave Interleave.Task List Prod
open Python (splitlines Plain)

def placementNames : List String := ["POSTGRES_DB", "POSTGRES_USER", "CROWDRELAY_DATABASE_URL"]

def secretNames : List String :=
  ["POSTGRES_PASSWORD", "CROWDRELAY_RESPONSE_ENCRYPTION_SECRET", "CROWDRELAY_ADMIN_API_KEY",
    "CROWDRELAY_STAFF_API_KEY", "CROWDRELAY_QR_SIGNING_SECRET"]

def managementNames : List String :=
  ["CROWDRELAY_CONTROL_PLANE_AREA_API_KEY", "CROWDRELAY_CONTROL_PLANE_API_KEY"]

theorem kept_plain : ∀ key ∈ secretNames ++ managementNames, PlainKey key ∧ key ∉ placementNames := by
  decide

theorem named_plain : ∀ key ∈ placementNames ++ secretNames, PlainKey key ∧ key ∉ managementNames := by
  decide

variable {rt : Runtime} {config : Config} {base plan : Json} {slug placement key : String}
  {text text' mid value : List Char} {entry : String × List Char}
  {entries : List (String × List Char)} {password : List Char} {lines : List (List Char)}

theorem plainKeys_placementValues (password : List Char) : PlainKeys (placementValues plan password) where
  plain entry hentry := (named_plain entry.1 (mem_append_left _ (mem_map_of_mem (f := fst) hentry))).1
  nodup := by
    have hnames : (placementValues plan password).map fst = placementNames := rfl
    rw [hnames]
    decide

def tokenValue (masterKey key : String) (token : List Char) : List (String × List Char) :=
  if masterKey = "" then [] else [(key, token)]

variable (rt config plan) in
abbrev areaValue : List (String × List Char) :=
  tokenValue config.areaManagementMasterKey "CROWDRELAY_CONTROL_PLANE_AREA_API_KEY"
    (deriveAreaManagementToken rt config.areaManagementMasterKey (tenantIdOf plan))

variable (rt config plan) in
abbrev operationsValue : List (String × List Char) :=
  tokenValue config.managementMasterKey "CROWDRELAY_CONTROL_PLANE_API_KEY"
    (deriveManagementToken rt config.managementMasterKey (tenantIdOf plan))

theorem managementValues_eq :
    managementValues rt config plan = areaValue rt config plan ++ operationsValue rt config plan := rfl

theorem mem_tokenValue {masterKey : String} (hentry : entry ∈ tokenValue masterKey key value) :
    entry = (key, value) := by
  unfold tokenValue at hentry
  split at hentry
  · cases hentry
  · exact mem_singleton.mp hentry

theorem plainName_hexdigest (masterKey message : String) : PlainName (rt.hexdigest masterKey message) := by
  obtain ⟨hne, hhex⟩ := rt.hexdigest_hex masterKey message
  refine ⟨hne, fun c hc => ?_⟩
  exact (by decide : ∀ d ∈ hexdigit, Python.isLineBreak d = false) c (hhex c hc)

theorem mem_managementValues (hentry : entry ∈ managementValues rt config plan) :
    entry.1 ∈ managementNames ∧ PlainName entry.2 := by
  rcases mem_append.mp hentry with hentry | hentry
  · rw [mem_tokenValue hentry]
    exact ⟨by simp [managementNames], plainName_hexdigest _ _⟩
  · rw [mem_tokenValue hentry]
    exact ⟨by simp [managementNames], plainName_hexdigest _ _⟩

theorem kept_management (hentry : entry ∈ managementValues rt config plan) :
    entry.1 ∈ secretNames ++ managementNames :=
  mem_append_right _ (mem_managementValues hentry).1

theorem plainKey_managementValues (hentry : entry ∈ managementValues rt config plan) : PlainKey entry.1 :=
  (kept_plain entry.1 (kept_management hentry)).1

theorem operations_not_area (hentry : entry ∈ operationsValue rt config plan) :
    entry.1 ∉ (areaValue rt config plan).map Prod.fst := by
  rw [mem_tokenValue hentry]
  intro hmem
  obtain ⟨other, hother, hname⟩ := mem_map.mp hmem
  rw [mem_tokenValue hother] at hname
  exact absurd hname (by simp)

theorem nodup_managementValues : ((managementValues rt config plan).map Prod.fst).Nodup := by
  rw [managementValues_eq]
  unfold areaValue operationsValue tokenValue
  split_ifs <;> simp

theorem mem_secretValues_cases {secrets : Secrets} (hentry : entry ∈ secretValues rt config plan secrets) :
    entry.1 ∈ placementNames ∨ entry.1 ∈ secretNames ∨ entry ∈ managementValues rt config plan := by
  rcases mem_append.mp hentry with hentry | hentry
  · simp only [mem_cons, not_mem_nil, or_false] at hentry
    rcases hentry with rfl | rfl | rfl | rfl | rfl | rfl | rfl | rfl <;> simp [placementNames, secretNames]
  · exact .inr (.inr hentry)

theorem mem_names_secretValues (secrets : Secrets) (hkey : key ∈ placementNames ++ secretNames) :
    key ∈ (secretValues rt config plan secrets).map fst := by
  rw [secretValues, map_append]
  simp only [placementNames, secretNames, cons_append, nil_append, mem_cons, not_mem_nil,
    or_false] at hkey
  rcases hkey with rfl | rfl | rfl | rfl | rfl | rfl | rfl | rfl <;> simp

variable (rt config plan) in
/-- Every key that `create_secret_env` writes stands there once, with a value. -/
def Complete (text : List Char) : Prop :=
  ∀ secrets, ∀ entry ∈ secretValues rt config plan secrets,
    ∃ value, value ≠ [] ∧ valuesOf entry.1 text = [value]

variable (rt config plan) in
/-- What a preparation makes complete: the secrets are there once, no line of the placement is there
twice, and the management tokens are the derived ones or missing. -/
structure Intact (text : List Char) : Prop where
  secrets : ∀ key ∈ secretNames, ∃ value, value ≠ [] ∧ valuesOf key text = [value]
  password : envValue "POSTGRES_PASSWORD" text ≠ []
  placement : ∀ key ∈ placementNames, keyCount key (splitlines text) ≤ 1
  management : ∀ entry ∈ managementValues rt config plan,
    valuesOf entry.1 text = [] ∨ valuesOf entry.1 text = [entry.2]

structure Converges (text text' : List Char) : Prop where
  others : ∀ key, PlainKey key → key ∉ placementNames → valuesOf key text' = valuesOf key text
  placement : ∀ key ∈ placementNames, ∃ value, value ≠ [] ∧
    valuesOf key text' = List.replicate (max 1 (keyCount key (splitlines text))) value
  counts : ∀ key ∈ placementNames,
    keyCount key (splitlines text') = max 1 (keyCount key (splitlines text))

structure Ensured (entries : List (String × List Char)) (text text' : List Char) : Prop where
  before : ∀ entry ∈ entries, valuesOf entry.1 text = [] ∨ valuesOf entry.1 text = [entry.2]
  values : ∀ entry ∈ entries, valuesOf entry.1 text' = [entry.2]
  others : ∀ key, PlainKey key → key ∉ entries.map Prod.fst →
    valuesOf key text' = valuesOf key text ∧
      keyCount key (splitlines text') = keyCount key (splitlines text)

theorem Ensured.nil : Ensured [] text text where
  before := by simp
  values := by simp
  others _ _ _ := ⟨rfl, rfl⟩

theorem Ensured.append {first second : List (String × List Char)}
    (hfirst : Ensured first text mid) (hsecond : Ensured second mid text')
    (hplain : ∀ entry ∈ first ++ second, PlainKey entry.1)
    (hnotFirst : ∀ entry ∈ second, entry.1 ∉ first.map fst) :
    Ensured (first ++ second) text text' := by
  have hnotSecond : ∀ entry ∈ first, entry.1 ∉ second.map fst := by
    intro entry hentry hmem
    obtain ⟨other, hother, hname⟩ := mem_map.mp hmem
    exact hnotFirst other hother (hname ▸ mem_map_of_mem hentry)
  refine ⟨fun entry hentry => ?_, fun entry hentry => ?_, fun key hkey hnot => ?_⟩
  · rcases mem_append.mp hentry with hmem | hmem
    · exact hfirst.before entry hmem
    · rw [← (hfirst.others entry.1 (hplain entry hentry) (hnotFirst entry hmem)).1]
      exact hsecond.before entry hmem
  · rcases mem_append.mp hentry with hmem | hmem
    · rw [(hsecond.others entry.1 (hplain entry hentry) (hnotSecond entry hmem)).1]
      exact hfirst.values entry hmem
    · exact hsecond.values entry hmem
  · rw [map_append, mem_append, not_or] at hnot
    have hmid := hfirst.others key hkey hnot.1
    have hend := hsecond.others key hkey hnot.2
    exact ⟨hend.1.trans hmid.1, hend.2.trans hmid.2⟩

theorem Converges.kept (hconverges : Converges text text')
    (hkey : key ∈ secretNames ++ managementNames) : valuesOf key text' = valuesOf key text :=
  hconverges.others key (kept_plain key hkey).1 (kept_plain key hkey).2

theorem Ensured.kept (hensured : Ensured entries text text')
    (hsub : ∀ entry ∈ entries, entry ∈ managementValues rt config plan)
    (hkey : key ∈ placementNames ++ secretNames) : valuesOf key text' = valuesOf key text ∧
      keyCount key (splitlines text') = keyCount key (splitlines text) := by
  obtain ⟨hplain, hnot⟩ := named_plain key hkey
  refine hensured.others key hplain fun hmem => ?_
  obtain ⟨entry, hentry, rfl⟩ := mem_map.mp hmem
  exact hnot (mem_managementValues (hsub entry hentry)).1

theorem Intact.converged (hintact : Intact rt config plan text) (hconverges : Converges text text') :
    Intact rt config plan text' where
  secrets key hkey := by
    rw [hconverges.kept (mem_append_left _ hkey)]
    exact hintact.secrets key hkey
  password := by
    unfold envValue
    rw [hconverges.kept (by decide)]
    exact hintact.password
  placement key hkey := by
    have hcount := hintact.placement key hkey
    rw [hconverges.counts key hkey]
    omega
  management entry hentry := by
    rw [hconverges.kept (kept_management hentry)]
    exact hintact.management entry hentry

theorem Intact.ensured (hintact : Intact rt config plan text)
    (hsub : ∀ entry ∈ entries, entry ∈ managementValues rt config plan)
    (hensured : Ensured entries text text') : Intact rt config plan text' := by
  refine ⟨fun key hkey => ?_, ?_, fun key hkey => ?_, fun entry hentry => ?_⟩
  · rw [(hensured.kept hsub (mem_append_right _ hkey)).1]
    exact hintact.secrets key hkey
  · unfold envValue
    rw [(hensured.kept hsub (by decide)).1]
    exact hintact.password
  · rw [(hensured.kept hsub (mem_append_left _ hkey)).2]
    exact hintact.placement key hkey
  · by_cases hmem : entry.1 ∈ entries.map fst
    · obtain ⟨same, hsame, hname⟩ := mem_map.mp hmem
      have heq : same = entry :=
        inj_on_of_nodup_map nodup_managementValues (hsub same hsame) hentry hname
      exact .inr (hensured.values entry (heq ▸ hsame))
    · rw [(hensured.others entry.1 (plainKey_managementValues hentry) hmem).1]
      exact hintact.management entry hentry

theorem complete_iff_intact (hconverges : Converges text mid)
    (hpassword : envValue "POSTGRES_PASSWORD" text ≠ [])
    (hensured : Ensured (managementValues rt config plan) mid text') :
    Complete rt config plan text' ↔ Intact rt config plan text := by
  have hsecret : ∀ key ∈ secretNames, valuesOf key text' = valuesOf key text := by
    intro key hkey
    rw [(hensured.kept (fun _ => id) (mem_append_right _ hkey)).1,
      hconverges.kept (mem_append_left _ hkey)]
  have hplacement : ∀ key ∈ placementNames, ∃ value, value ≠ [] ∧
      valuesOf key text' = replicate (max 1 (keyCount key (splitlines text))) value := by
    intro key hkey
    rw [(hensured.kept (fun _ => id) (mem_append_left _ hkey)).1]
    exact hconverges.placement key hkey
  constructor
  · intro hcomplete
    have hnames : ∀ key ∈ placementNames ++ secretNames, ∃ value, value ≠ [] ∧
        valuesOf key text' = [value] := by
      intro key hkey
      let secrets : Secrets := ⟨plainToken, plainToken, plainToken, plainToken, plainToken⟩
      have hmem : key ∈ (secretValues rt config plan secrets).map fst :=
        mem_names_secretValues secrets hkey
      obtain ⟨entry, hentry, rfl⟩ := mem_map.mp hmem
      exact hcomplete secrets entry hentry
    refine ⟨fun key hkey => ?_, hpassword, fun key hkey => ?_, fun entry hentry => ?_⟩
    · rw [← hsecret key hkey]
      exact hnames key (mem_append_right _ hkey)
    · obtain ⟨value, _, hvalues⟩ := hplacement key hkey
      obtain ⟨_, _, hone⟩ := hnames key (mem_append_left _ hkey)
      have hlength := congrArg length (hvalues.symm.trans hone)
      rw [length_replicate, length_singleton] at hlength
      omega
    · rw [← hconverges.kept (kept_management hentry)]
      exact hensured.before entry hentry
  · intro hintact secrets entry hentry
    rcases mem_secretValues_cases hentry with hkey | hkey | hmem
    · obtain ⟨value, hvalue, hvalues⟩ := hplacement entry.1 hkey
      have hcount := hintact.placement entry.1 hkey
      rw [max_eq_left hcount] at hvalues
      exact ⟨value, hvalue, hvalues⟩
    · rw [hsecret entry.1 hkey]
      exact hintact.secrets entry.1 hkey
    · exact ⟨entry.2, (mem_managementValues hmem).2.1, hensured.values entry hmem⟩

theorem plain_token (token : Token) : PlainName token.text ∧ Python.strip token.text = token.text := by
  have hchars : ∀ c ∈ alphanumeric ++ ['_', '-'],
      Python.isLineBreak c = false ∧ Python.isSpace c = false := by decide
  have hspace : ∀ c ∈ token.text, Python.isSpace c = false := fun c hc => (hchars c (token.urlsafe c hc)).2
  exact ⟨⟨token.ne_nil, fun c hc => (hchars c (token.urlsafe c hc)).1⟩, Python.strip_of_no_space hspace⟩

theorem plainName_databaseUrl (hplaced : Placed base slug placement plan)
    (hpassword : Plain password) : PlainName (databaseUrl plan password) := by
  obtain ⟨hname, hhost⟩ := hplaced.database
  unfold databaseUrl
  cases hdatabase : database plan with
  | mk name host =>
  rw [hdatabase] at hname hhost
  have hscheme : Plain "postgres://".toList := by decide
  have hport : Plain ":5432/".toList := by decide
  refine ⟨append_ne_nil_of_right_ne_nil _ hname.1, fun c hc => ?_⟩
  simp only [append_assoc, cons_append, mem_append, mem_cons] at hc
  rcases hc with hc | hc | rfl | hc | rfl | hc | hc | hc
  · exact hscheme c hc
  · exact hname.2 c hc
  · decide
  · exact hpassword c hc
  · decide
  · exact hhost.2 c hc
  · exact hport c hc
  · exact hname.2 c hc

theorem plainName_placementValues (hplaced : Placed base slug placement plan)
    (hpassword : Plain password) : ∀ entry ∈ placementValues plan password, PlainName entry.2 := by
  have hname := hplaced.database.1
  intro entry hentry
  simp only [placementValues, mem_cons, not_mem_nil, or_false] at hentry
  rcases hentry with rfl | rfl | rfl
  · exact hname
  · exact hname
  · exact plainName_databaseUrl hplaced hpassword

theorem plainName_secretValues (hplaced : Placed base slug placement plan) (secrets : Secrets) :
    ∀ entry ∈ secretValues rt config plan secrets, PlainName entry.2 := by
  have hname := hplaced.database.1
  have htoken := fun token : Token => (plain_token token).1
  intro entry hentry
  rcases mem_append.mp hentry with hentry | hentry
  · simp only [mem_cons, not_mem_nil, or_false] at hentry
    rcases hentry with rfl | rfl | rfl | rfl | rfl | rfl | rfl | rfl
    · exact hname
    · exact hname
    · exact htoken _
    · exact plainName_databaseUrl hplaced (htoken _).2
    all_goals exact htoken _
  · exact (mem_managementValues hentry).2

theorem names_secretValues (secrets : Secrets) :
    ((secretValues rt config plan secrets).map Prod.fst).Sublist
      (["POSTGRES_DB", "POSTGRES_USER", "POSTGRES_PASSWORD", "CROWDRELAY_DATABASE_URL",
        "CROWDRELAY_RESPONSE_ENCRYPTION_SECRET", "CROWDRELAY_ADMIN_API_KEY", "CROWDRELAY_STAFF_API_KEY",
        "CROWDRELAY_QR_SIGNING_SECRET"] ++ managementNames) := by
  rw [secretValues, map_append]
  rw [managementValues_eq]
  unfold areaValue operationsValue tokenValue
  split_ifs <;> simp [managementNames]

theorem plainKeys_secretValues (secrets : Secrets) : PlainKeys (secretValues rt config plan secrets) where
  plain entry hentry := by
    have hmem := (names_secretValues secrets).subset (mem_map_of_mem (f := fst) hentry)
    revert hmem
    generalize entry.1 = name
    revert name
    decide
  nodup := (by decide : List.Nodup _).sublist (names_secretValues secrets)

theorem intact_envText (hplaced : Placed base slug placement plan) (secrets : Secrets) :
    Intact rt config plan (envText (secretValues rt config plan secrets)) := by
  have hkeys : PlainKeys (secretValues rt config plan secrets) := plainKeys_secretValues secrets
  have hnames : ∀ entry ∈ secretValues rt config plan secrets, PlainName entry.2 :=
    plainName_secretValues hplaced secrets
  have hvalues : ∀ {key value}, (key, value) ∈ secretValues rt config plan secrets →
      valuesOf key (envText (secretValues rt config plan secrets)) = [value] :=
    valuesOf_envText hkeys fun entry hentry => (hnames entry hentry).2
  refine ⟨fun key hkey => ?_, ?_, fun key _ => ?_, fun entry hentry => ?_⟩
  · obtain ⟨entry, hentry, rfl⟩ :=
      mem_map.mp (mem_names_secretValues secrets (mem_append_right _ hkey))
    exact ⟨entry.2, (hnames entry hentry).1, hvalues hentry⟩
  · have hpassword : ("POSTGRES_PASSWORD", secrets.dbPassword.text) ∈
        secretValues rt config plan secrets := by simp [secretValues]
    rw [envValue, hvalues hpassword]
    simpa [(plain_token _).2] using secrets.dbPassword.ne_nil
  · rw [splitlines_envText hkeys fun entry hentry => (hnames entry hentry).2, keyCount_entries hkeys]
    split <;> omega
  · exact .inr (hvalues (mem_append_right _ hentry))

theorem plain_of_mem_valuesOf (hvalue : value ∈ valuesOf key text) : Plain value := by
  obtain ⟨line, hline, hassign⟩ := mem_filterMap.mp hvalue
  have hplain := Python.plain_of_mem_splitlines line hline
  rw [lineValue_eq_some.mp hassign] at hplain
  exact fun c hc => hplain c (mem_append_right _ (mem_cons_of_mem _ hc))

theorem plain_envValue : Plain (envValue key text) := by
  intro c hc
  have hmem := Python.mem_of_mem_strip hc
  cases hvalues : valuesOf key text with
  | nil =>
    rw [hvalues] at hmem
    cases hmem
  | cons value values =>
    rw [hvalues] at hmem
    exact plain_of_mem_valuesOf (hvalues ▸ mem_cons_self) c hmem

theorem converges_of_splitlines (hplaced : Placed base slug placement plan)
    (hlines : splitlines text' =
      converged (placementValues plan (envValue "POSTGRES_PASSWORD" text)) (splitlines text)) :
    Converges text text' := by
  have hkeys : PlainKeys (placementValues plan (envValue "POSTGRES_PASSWORD" text)) :=
    plainKeys_placementValues _
  refine ⟨fun key hkey hnot => ?_, fun key hkey => ?_, fun key hkey => ?_⟩
  · rw [valuesOf_eq, hlines, filterMap_converged_of_notMem hkeys hkey hnot, ← valuesOf_eq]
  · have hmem : key ∈ (placementValues plan (envValue "POSTGRES_PASSWORD" text)).map fst := hkey
    obtain ⟨entry, hentry, rfl⟩ := mem_map.mp hmem
    refine ⟨entry.2, (plainName_placementValues hplaced plain_envValue entry hentry).1, ?_⟩
    rw [valuesOf_eq, hlines, filterMap_converged_of_mem hkeys hentry]
  · rw [hlines, keyCount_converged hkeys hkey]

variable (plan text) in
/-- What `converge_secret_env` leaves of a file. -/
def convergedEnv : List Char :=
  if converged (placementValues plan (envValue "POSTGRES_PASSWORD" text)) (splitlines text) =
      splitlines text then text
  else joinLines (converged (placementValues plan (envValue "POSTGRES_PASSWORD" text)) (splitlines text))

theorem converged_ne_nil : converged (placementValues plan password) lines ≠ [] := by
  intro hnil
  have hcount : keyCount "POSTGRES_DB" (converged (placementValues plan password) lines) = _ :=
    keyCount_converged (plainKeys_placementValues password) (by simp [placementValues])
  rw [hnil] at hcount
  have hzero : keyCount "POSTGRES_DB" [] = 0 := rfl
  omega

theorem plain_placed (hplaced : Placed base slug placement plan) (hlines : ∀ line ∈ lines, Plain line) :
    ∀ line ∈ converged (placementValues plan (envValue key text)) lines, Plain line :=
  plain_converged (plainKeys_placementValues _)
    (fun entry hentry => (plainName_placementValues hplaced plain_envValue entry hentry).2) hlines

theorem converges_convergedEnv (hplaced : Placed base slug placement plan) :
    Converges text (convergedEnv plan text) := by
  apply converges_of_splitlines hplaced
  unfold convergedEnv
  split_ifs with hsame
  · exact hsame.symm
  · exact splitlines_joinLines converged_ne_nil (plain_placed hplaced Python.plain_of_mem_splitlines)

theorem ensured_appended (hkey : PlainKey key) (hvalue : Plain value) (hnone : valuesOf key text = []) :
    Ensured [(key, value)] text (appended key value text) := by
  obtain ⟨gap, hgap, hlines⟩ : ∃ gap, (gap = [] ∨ gap = [[]]) ∧
      splitlines (appended key value text) = splitlines text ++ gap ++ [assign key value] :=
    splitlines_appended hkey hvalue
  have hgapValue : ∀ other, gap.filterMap (lineValue other) = [] := by
    intro other
    rcases hgap with rfl | rfl
    · rfl
    · have hempty : lineValue other [] = none := by
        rw [Option.eq_none_iff_forall_ne_some]
        intro found hfound
        simpa [assign] using lineValue_eq_some.mp hfound
      rw [filterMap_cons_none hempty, filterMap_nil]
  have hvalues : ∀ other, valuesOf other (appended key value text) =
      valuesOf other text ++ [assign key value].filterMap (lineValue other) := by
    intro other
    rw [valuesOf_eq, hlines, filterMap_append, filterMap_append, hgapValue, append_nil,
      ← valuesOf_eq]
  refine ⟨by simp [hnone], fun entry hentry => ?_, fun other hother hne => ?_⟩
  · rw [mem_singleton.mp hentry, hvalues, hnone]
    simp
  · have hname : key ≠ other := fun h => hne (by simp [h])
    refine ⟨?_, ?_⟩
    · rw [hvalues, filterMap_cons_none (lineValue_assign_of_ne hother hkey hname)]
      simp
    · have hown : keyCount other [assign key value] = 0 := by
        have hkeys : [assign key value].map lineKey = [key.toList] := by
          rw [map_singleton, lineKey_assign hkey]
        rw [keyCount, hkeys, count_eq_zero, mem_singleton]
        exact fun h => hname (String.toList_inj.mp h.symm)
      have hgapCount : keyCount other gap = 0 := by
        rcases hgap with rfl | rfl
        · rfl
        · have hkeys : [([] : List Char)].map lineKey = [[]] := rfl
          rw [keyCount, hkeys, count_eq_zero, mem_singleton]
          exact hother.2.2.2
      rw [hlines, keyCount_append, keyCount_append, hown, hgapCount, Nat.add_zero]

section Steps

variable {P : Option (List Char) → Prop} {v : World} {E : Nat × World → Exn → Prop} {n : Nat}
  {d : List Char}

/-- The operations of a step that leaves the tenant's `.env` in a set of files at all times. -/
abbrev keepingEnv (slug : String) (P : Option (List Char) → Prop) :
    Contract HostOp HostOp.Result (Nat × World) :=
  counting exec fun _ v => P (v.tenant slug).env

variable {Q : Nat × World → Unit → Prop} {content : List Char}
  {unreadable mismatch : ProvisionError}

theorem meets_writeChars (content : List Char) (henv : (v.tenant slug).env = some d)
    (hP : ∀ m, P (some (d ++ content.take m)))
    (hQ : ∀ n u, (u.tenant slug).env = some (d ++ content) → Q (n, u) ()) :
    Meets (keepingEnv slug P) (writeChars slug content) (n, v) Q E := by
  induction content generalizing n v d with
  | nil => exact .pure (hQ n v (by rw [henv, append_nil]))
  | cons c content ih =>
    have hnow : P (v.tenant slug).env := by simpa [henv] using hP 0
    refine .ask_bind hnow fun _ => ?_
    refine ih (d := d ++ [c]) (by simp [exec, henv]) (fun m => ?_) fun n u hu => hQ n u ?_
    · simpa using hP (m + 1)
    · simpa using hu

theorem meets_writeOnce_some (henv : (v.tenant slug).env = some text) (htext : P (some text))
    (hQ : ∀ n, Q (n, v) ()) :
    Meets (keepingEnv slug P) (writeOnce slug content) (n, v) Q E := by
  refine .ask_bind (by rwa [henv]) fun _ => ?_
  simp only [exec, henv]
  exact .pure (hQ _)

theorem meets_writeOnce_none (henv : (v.tenant slug).env = none) (hnone : P none)
    (hP : ∀ m, P (some (content.take m)))
    (hQ : ∀ n u, (u.tenant slug).env = some content → Q (n, u) ()) :
    Meets (keepingEnv slug P) (writeOnce slug content) (n, v) Q E := by
  refine .ask_bind (by rwa [henv]) fun _ => ?_
  simp only [exec, henv]
  refine .ask_bind (by rwa [henv]) fun _ => ?_
  exact meets_writeChars (d := []) content (by simp [exec]) hP hQ

theorem meets_convergeSecretEnv (henv : (v.tenant slug).env = some text) (htext : P (some text))
    (hQ : envValue "POSTGRES_PASSWORD" text ≠ [] → ∀ n u,
      (u.tenant slug).env = some (convergedEnv plan text) → Q (n, u) ())
    (hE : envValue "POSTGRES_PASSWORD" text = [] → ∀ n e, E (n, v) e) :
    Meets (keepingEnv slug P) (convergeSecretEnv slug plan) (n, v) Q E := by
  have hnow : P (v.tenant slug).env := by rwa [henv]
  refine .ask_bind hnow fun _ => ?_
  simp only [exec, henv]
  refine .bind (meets_ensure.mpr ⟨fun hpassword => ?_, fun hpassword => ?_⟩)
  · have hleft := hQ hpassword
    refine .ask_bind hnow fun _ => ?_
    simp only [exec, henv]
    unfold convergedEnv at hleft
    split_ifs with hsame
    · rw [if_neg hsame] at hleft
      exact meets_ask_counting.mpr ⟨hnow, fun _ => hleft _ _ (by simp [exec])⟩
    · rw [if_pos (not_not.mp hsame)] at hleft
      exact .pure (hleft _ v henv)
  · exact hE (not_not.mp hpassword) _ _

theorem meets_ensureSecret (henv : (v.tenant slug).env = some text) (htext : P (some text))
    (hkey : PlainKey key) (hvalue : Plain value)
    (hQ : ∀ text', Ensured [(key, value)] text text' → ∀ n u, (u.tenant slug).env = some text' → Q (n, u) ())
    (hE : ¬ (valuesOf key text = [] ∨ valuesOf key text = [value]) → ∀ n e, E (n, v) e) :
    Meets (keepingEnv slug P) (ensureSecret slug key value unreadable mismatch) (n, v) Q E := by
  have hnow : P (v.tenant slug).env := by rwa [henv]
  refine .ask_bind hnow fun _ => ?_
  simp only [exec, henv]
  cases hvalues : valuesOf key text with
  | nil =>
    refine meets_ask_counting.mpr ⟨hnow, fun _ => ?_⟩
    exact hQ (appended key value text) (ensured_appended hkey hvalue hvalues) _ _ (by simp [exec, appended])
  | cons first others =>
    refine meets_ensure.mpr ⟨fun hsame => ?_, fun hother => hE ?_ _ _⟩
    · have hfound : valuesOf key text = [value] := hvalues.trans hsame
      refine hQ text ⟨?_, ?_, fun _ _ _ => ⟨rfl, rfl⟩⟩ _ v henv
      · intro entry hentry
        rw [mem_singleton.mp hentry]
        exact .inr hfound
      · intro entry hentry
        rw [mem_singleton.mp hentry]
        exact hfound
    · rw [hvalues]
      simpa using hother

theorem meets_ensureToken {masterKey : String} (henv : (v.tenant slug).env = some text)
    (htext : P (some text)) (hkey : PlainKey key) (hvalue : Plain value)
    (hQ : ∀ text', Ensured (tokenValue masterKey key value) text text' →
      ∀ n u, (u.tenant slug).env = some text' → Q (n, u) ())
    (hE : (∃ entry ∈ tokenValue masterKey key value,
      ¬ (valuesOf entry.1 text = [] ∨ valuesOf entry.1 text = [entry.2])) → ∀ n e, E (n, v) e) :
    Meets (keepingEnv slug P) (if masterKey = "" then pure () else
      ensureSecret slug key value unreadable mismatch) (n, v) Q E := by
  unfold tokenValue at hQ hE
  by_cases hmaster : masterKey = ""
  · rw [if_pos hmaster]
    rw [if_pos hmaster] at hQ
    exact .pure (hQ text .nil n v henv)
  · rw [if_neg hmaster]
    rw [if_neg hmaster] at hQ hE
    exact meets_ensureSecret henv htext hkey hvalue hQ fun hbad => hE ⟨_, mem_singleton.mpr rfl, hbad⟩

end Steps

/-- `create_runtime_env` finds all it needs in the plan. -/
def Renderable (plan : Json) : Prop := ∃ values, createRuntimeEnv plan = .ok values

variable (rt config plan) in
/-- What an attempt needs of the host: a port, and a `.env` that is missing or intact. -/
structure Ready (w : World) : Prop where
  renderable : Renderable plan
  choosable : Choosable config (slugOf plan) w
  intact : ∀ text, (w.tenant (slugOf plan)).env = some text → Intact rt config plan text

variable (rt config plan) in
structure Follows (text text' : List Char) : Prop where
  kept : ∀ key ∈ secretNames ++ managementNames, valuesOf key text ≠ [] →
    valuesOf key text' = valuesOf key text
  intact : Intact rt config plan text → Intact rt config plan text'

theorem Follows.refl : Follows rt config plan text text := ⟨fun _ _ _ => rfl, id⟩

theorem Follows.trans (hfirst : Follows rt config plan text mid)
    (hsecond : Follows rt config plan mid text') : Follows rt config plan text text' where
  kept key hkey hne := by
    have hmid := hfirst.kept key hkey hne
    rw [hsecond.kept key hkey (by rwa [hmid]), hmid]
  intact hintact := hsecond.intact (hfirst.intact hintact)

theorem Converges.follows (hconverges : Converges text text') : Follows rt config plan text text' where
  kept _ hkey _ := hconverges.kept hkey
  intact hintact := hintact.converged hconverges

theorem Ensured.follows (hensured : Ensured entries text text')
    (hsub : ∀ entry ∈ entries, entry ∈ managementValues rt config plan) :
    Follows rt config plan text text' where
  kept key hkey hne := by
    by_cases hmem : key ∈ entries.map fst
    · obtain ⟨entry, hentry, rfl⟩ := mem_map.mp hmem
      rw [hensured.values entry hentry, (hensured.before entry hentry).resolve_left hne]
    · exact (hensured.others key (kept_plain key hkey).1 hmem).1
  intact hintact := hintact.ensured hsub hensured

theorem choosable_iff {w v : World} (hsame : SameRecords w v) (huse : v.inUse = w.inUse) :
    Choosable config slug v ↔ Choosable config slug w := by
  have hreadable : ∀ other, Readable v other ↔ Readable w other := by
    intro other
    rw [Readable, Readable, hsame other]
  constructor
  · rintro ⟨hread, hkept, hfree⟩
    simp only [hsame.recordedPort, hreadable, huse] at hread hkept hfree
    exact ⟨hread, hkept, hfree⟩
  · rintro ⟨hread, hkept, hfree⟩
    simp only [← hsame.recordedPort, ← hreadable, ← huse] at hread hkept hfree
    exact ⟨hread, hkept, hfree⟩

section Attempt

variable {w v : World} {E : Nat × World → Exn → Prop} {n : Nat}

theorem meets_createSecretEnv {K : Nat → World → Prop} {Q : Nat × World → List Char → Prop}
    (hK : ∀ n, K n v) (hQ : ∀ secrets n, Q (n, v) (envText (secretValues rt config plan secrets))) :
    Meets (counting exec K) (createSecretEnv rt config plan) (n, v) Q E := by
  refine .ask_bind (hK _) fun _ => ?_
  refine .ask_bind (hK _) fun _ => ?_
  refine .ask_bind (hK _) fun _ => ?_
  refine .ask_bind (hK _) fun _ => ?_
  refine .ask_bind (hK _) fun _ => ?_
  exact .pure (hQ ⟨_, _, _, _, _⟩ _)

variable (rt config plan) in
/-- The file the steps after `write_once` find: what was there, or what a first attempt writes. -/
def Start (env : Option (List Char)) (text : List Char) : Prop :=
  env = some text ∨ env = none ∧ Intact rt config plan text

variable (rt config plan) in
def Left (env env' : Option (List Char)) : Prop :=
  ∀ text, env = some text → ∃ text', env' = some text' ∧ Follows rt config plan text text'

variable {env : Option (List Char)}

theorem Left.refl : Left rt config plan env env := fun text htext => ⟨text, htext, .refl⟩

theorem Start.eq_of_some (hstart : Start rt config plan env text) (henv : env = some text') :
    text' = text := by
  rcases hstart with hsome | ⟨hnone, _⟩
  · exact Option.some.inj (henv.symm.trans hsome)
  · cases henv.symm.trans hnone

theorem Start.left (hstart : Start rt config plan env text)
    (hfollows : Follows rt config plan text text') : Left rt config plan env (some text') := by
  intro old hold
  rw [hstart.eq_of_some hold]
  exact ⟨text', rfl, hfollows⟩

theorem Start.not_ready (hstart : Start rt config plan (w.tenant (slugOf plan)).env text)
    (hbad : ¬ Intact rt config plan text) : ¬ Ready rt config plan w := by
  intro hready
  rcases hstart with hsome | ⟨_, hintact⟩
  · exact hbad (hready.intact text hsome)
  · exact hbad hintact

variable (rt config plan) in
def finishFiles (port : Nat) : Agent Nat := do
  convergeSecretEnv (slugOf plan) plan
  ensureAreaManagementSecret rt config (slugOf plan) plan
  ensureManagementSecret rt config (slugOf plan) plan
  let values ← require (createRuntimeEnv plan)
  ask (HostOp.replaceTenantEnv (slugOf plan) values)
  ask (HostOp.replaceBootstrap (slugOf plan) (item "displayName" plan))
  let recorded ← ask (HostOp.readDeployment (slugOf plan))
  ask (HostOp.replaceDeployment (slugOf plan) (recordPlan plan port (recorded.getD (.obj []))))
  pure port

variable (rt config plan w) in
/-- The end of an attempt that was not killed: it follows the file it found, and it has succeeded with a
complete file exactly if the host was ready. -/
abbrev Ended (k : Nat × World) : Prop :=
  Left rt config plan (w.tenant (slugOf plan)).env (k.2.tenant (slugOf plan)).env ∧
    ∃ text', (k.2.tenant (slugOf plan)).env = some text' ∧
      (Complete rt config plan text' ↔ Ready rt config plan w)

variable (rt config plan w) in
abbrev Failed (k : Nat × World) : Prop :=
  Left rt config plan (w.tenant (slugOf plan)).env (k.2.tenant (slugOf plan)).env ∧
    ¬ Ready rt config plan w

theorem meets_finishFiles {port : Nat} (hplaced : Placed base (slugOf plan) placement plan)
    (hchoosable : Choosable config (slugOf plan) w)
    (hstart : Start rt config plan (w.tenant (slugOf plan)).env text)
    (hv : (v.tenant (slugOf plan)).env = some text) :
    Meets (keepingEnv (slugOf plan) (Left rt config plan (w.tenant (slugOf plan)).env))
      (finishFiles rt config plan port) (n, v) (fun k _ => Ended rt config plan w k)
      (fun k _ => Failed rt config plan w k) := by
  have hleft : ∀ {t : List Char} {u : World}, Follows rt config plan text t →
      (u.tenant (slugOf plan)).env = some t →
      Left rt config plan (w.tenant (slugOf plan)).env (u.tenant (slugOf plan)).env := by
    intro t u hfollows hu
    rw [hu]
    exact hstart.left hfollows
  have hconverges : Converges text (convergedEnv plan text) := converges_convergedEnv hplaced
  refine .bind (meets_convergeSecretEnv hv (hstart.left .refl) (fun hpassword n u hu => ?_)
    fun hempty n e =>
    ⟨hleft .refl hv, hstart.not_ready fun hintact => hintact.password hempty⟩)
  generalize convergedEnv plan text = mid at hconverges hu
  have hmid : Follows rt config plan text mid := hconverges.follows
  have hvalues : ∀ entry ∈ managementValues rt config plan,
      valuesOf entry.1 mid = valuesOf entry.1 text :=
    fun _ hentry => hconverges.kept (kept_management hentry)
  have hareaSub : ∀ entry ∈ areaValue rt config plan, entry ∈ managementValues rt config plan :=
    fun _ => mem_append_left _
  have hopsSub : ∀ entry ∈ operationsValue rt config plan, entry ∈ managementValues rt config plan :=
    fun _ => mem_append_right _
  refine .bind (meets_ensureToken hu (hstart.left hmid) (by decide)
    (plainName_hexdigest _ _).2 (fun area harea n u hu => ?_) ?_)
  case refine_2 =>
    rintro ⟨entry, hentry, hbad⟩ n e
    refine ⟨hleft hmid hu, hstart.not_ready fun hintact => hbad ?_⟩
    rw [hvalues entry (hareaSub entry hentry)]
    exact hintact.management entry (hareaSub entry hentry)
  have hafterArea : Follows rt config plan text area := hmid.trans (harea.follows hareaSub)
  refine .bind (meets_ensureToken hu (hstart.left hafterArea) (by decide)
    (plainName_hexdigest _ _).2 (fun last hops n u hu => ?_) ?_)
  case refine_2 =>
    rintro ⟨entry, hentry, hbad⟩ n e
    refine ⟨hleft hafterArea hu, hstart.not_ready fun hintact => hbad ?_⟩
    rw [(harea.others entry.1 (plainKey_managementValues (hopsSub entry hentry))
      (operations_not_area hentry)).1, hvalues entry (hopsSub entry hentry)]
    exact hintact.management entry (hopsSub entry hentry)
  have hafterOps : Follows rt config plan text last := hafterArea.trans (hops.follows hopsSub)
  have hensured : Ensured (managementValues rt config plan) mid last :=
    harea.append hops (fun _ => plainKey_managementValues) fun _ => operations_not_area
  refine .bind (meets_require.mpr ⟨fun values hvalues => ?_, fun e he => ?_⟩)
  · have hdone : Ended rt config plan w (n, u) := by
      refine ⟨hleft hafterOps hu, last, hu, ?_⟩
      rw [complete_iff_intact hconverges hpassword hensured]
      refine ⟨fun hintact => ⟨⟨values, hvalues⟩, hchoosable, fun t ht => ?_⟩, fun hready => ?_⟩
      · rw [hstart.eq_of_some ht]
        exact hintact
      · by_contra hbad
        exact hstart.not_ready hbad hready
    refine .ask_bind hdone.1 fun _ => ?_
    refine .ask_bind hdone.1 fun _ => ?_
    refine .ask_bind hdone.1 fun _ => ?_
    refine .ask_bind hdone.1 fun _ => .pure ?_
    -- the record is in another file
    simpa [Ended, exec] using hdone
  · refine ⟨hleft hafterOps hu, fun hready => ?_⟩
    obtain ⟨values, hvalues⟩ := hready.renderable
    rw [hvalues] at he
    cases he

theorem meets_prepareFiles_env (hplaced : Placed base (slugOf plan) placement plan) :
    Meets (keepingEnv (slugOf plan) (Left rt config plan (w.tenant (slugOf plan)).env))
      (prepareFiles rt config plan) (n, w) (fun k _ => Ended rt config plan w k)
      (fun k _ => Failed rt config plan w k) := by
  have hmade : SameRecords w (w.setTenant (slugOf plan) (w.tenant (slugOf plan))) :=
    SameRecords.setTenant (fun _ => rfl) rfl
  have henv : ((w.setTenant (slugOf plan) (w.tenant (slugOf plan))).tenant (slugOf plan)).env =
      (w.tenant (slugOf plan)).env := by rw [tenant_setTenant_self]
  have hK : Left rt config plan (w.tenant (slugOf plan)).env
      ((w.setTenant (slugOf plan) (w.tenant (slugOf plan))).tenant (slugOf plan)).env := by
    rw [henv]
    exact .refl
  refine .bind (meets_ensure.mpr ⟨fun _ => ?_, fun hnot => absurd hplaced.insideRoot hnot⟩)
  refine .ask_bind .refl fun _ => ?_
  refine .bind (meets_choosePort (fun _ => hK) (fun port hchoosable _ n => ?_)
    (fun hnot _ _ => ⟨hK, fun hready => hnot ((choosable_iff hmade rfl).mpr hready.choosable)⟩) _)
  have hchoosable' : Choosable config (slugOf plan) w := (choosable_iff hmade rfl).mp hchoosable
  refine .bind (meets_createSecretEnv (fun _ => hK) fun secrets n => ?_)
  cases hfound : (w.tenant (slugOf plan)).env with
  | some text =>
    rw [hfound] at henv
    refine .bind (meets_writeOnce_some henv .refl fun n => ?_)
    rw [← hfound]
    exact meets_finishFiles hplaced hchoosable' (.inl hfound) henv
  | none =>
    rw [hfound] at henv
    refine .bind (meets_writeOnce_none henv .refl (fun m => nofun) fun n u hu => ?_)
    rw [← hfound]
    exact meets_finishFiles hplaced hchoosable' (.inr ⟨hfound, intact_envText hplaced secrets⟩) hu

end Attempt

section Attempts

variable {job : Json} {w u v : World} {ws : List World} {inUse : Nat → Bool} {r : Except Exn Nat} {n : Nat}
  {rest : Proc HostOp HostOp.Result (Except Exn Nat)}

variable (rt config plan) in
/-- Attempts at one preparation, with the worlds between them; each may have been killed after any of its
operations, the single characters of `write_once` among them. -/
inductive Attempts : World → List World → World → Prop
  | start {w : World} : Attempts w [w] w
  | next {w u v : World} {ws : List World} {inUse : Nat → Bool} {n : Nat}
      {rest : Proc HostOp HostOp.Result (Except Exn Nat)} (hattempts : Attempts w ws u)
      (hreached : Proc.Reached exec { u with inUse } (prepareFiles rt config plan).run n v rest) :
      Attempts w (ws ++ [v]) v

theorem left_of_reached (hplaced : Placed base (slugOf plan) placement plan)
    (hreached : Proc.Reached exec { u with inUse } (prepareFiles rt config plan).run n v rest) :
    Left rt config plan (u.tenant (slugOf plan)).env (v.tenant (slugOf plan)).env := by
  rcases reached_cases (meets_prepareFiles_env hplaced) hreached with
    hleft | ⟨_, _, hended⟩ | ⟨_, _, hfailed⟩
  · exact hleft
  · exact hended.1
  · exact hfailed.1

theorem Left.trans {a b c : Option (List Char)} (hfirst : Left rt config plan a b)
    (hsecond : Left rt config plan b c) : Left rt config plan a c := by
  intro text htext
  obtain ⟨mid, hmid, hfollows⟩ := hfirst text htext
  obtain ⟨last, hlast, hfollows'⟩ := hsecond mid hmid
  exact ⟨last, hlast, hfollows.trans hfollows'⟩

theorem Attempts.left (hattempts : Attempts rt config plan w ws u)
    (hplaced : Placed base (slugOf plan) placement plan) :
    ∀ x ∈ ws, Left rt config plan (x.tenant (slugOf plan)).env (u.tenant (slugOf plan)).env := by
  induction hattempts with
  | start =>
    intro x hx
    rw [mem_singleton.mp hx]
    exact .refl
  | next _ hreached ih =>
    intro x hx
    rcases mem_append.mp hx with hx | hx
    · exact (ih x hx).trans (left_of_reached hplaced hreached)
    · rw [mem_singleton.mp hx]
      exact .refl

theorem recovered_iff_ready (hplaced : Placed base (slugOf plan) placement plan)
    (hlast : Proc.Completes exec u (prepareFiles rt config plan).run v r) :
    (∃ port, r = .ok port) ∧ (∃ text, (v.tenant (slugOf plan)).env = some text ∧
      Complete rt config plan text) ↔ Ready rt config plan u := by
  obtain ⟨n, hend⟩ := completes_cases (meets_prepareFiles_env hplaced) hlast
  cases r with
  | ok port =>
    obtain ⟨_, text, htext, hcomplete⟩ := hend
    rw [← hcomplete, htext]
    simp
  | error e =>
    obtain ⟨_, hnot⟩ := hend
    simp [hnot]

/-- After any attempts, one that comes to its end succeeds with a complete `.env` exactly if a port
can be chosen, the plan has what `tenant.env` needs, and the `.env` it finds is missing or intact;
no attempt changes a recorded secret. -/
theorem preparation_recovers_iff (hplan : safePlan rt.toRuntime job = .ok plan)
    (hattempts : Attempts rt config plan w ws u)
    (hlast : Proc.Completes exec { u with inUse } (prepareFiles rt config plan).run v r) :
    ((∃ port, r = .ok port) ∧ (∃ text, (v.tenant (slugOf plan)).env = some text ∧
        Complete rt config plan text) ↔ Ready rt config plan { u with inUse }) ∧
      ∀ x ∈ ws, ∀ text, (x.tenant (slugOf plan)).env = some text →
        ∃ text', (v.tenant (slugOf plan)).env = some text' ∧
          ∀ key ∈ secretNames ++ managementNames, valuesOf key text ≠ [] →
            valuesOf key text' = valuesOf key text := by
  obtain ⟨base, slug, placement, hplaced⟩ := safePlan_placed hplan
  obtain rfl := hplaced.slugOf_eq
  refine ⟨recovered_iff_ready hplaced hlast, fun x hx text htext => ?_⟩
  obtain ⟨n, hreached⟩ := hlast
  obtain ⟨last, hlast, hfollows⟩ :=
    ((hattempts.left hplaced x hx).trans (left_of_reached hplaced hreached)) text htext
  exact ⟨last, hlast, hfollows.kept⟩

/-! A plan that passes, and two courses of its first attempt. -/

def acmeId : String := "00000000-0000-0000-0000-000000000001"

def acmeVersion : String := "sha-0000000000000000000000000000000000000000"

def acmeJob : Json :=
  .obj [("plan", .obj [("mode", .str "local_docker_compose"), ("schema", .num 3),
    ("tenantId", .str acmeId), ("tenantSlug", .str "acme"), ("composeProject", .str "crowdrelay-acme"),
    ("workspaceSlug", .str "acme"), ("displayName", .str "Acme"), ("defaultCountryCode", .str "DE"),
    ("desiredVersion", .str acmeVersion), ("apiImage", .str ("crowdrelay-api" ++ ":" ++ acmeVersion)),
    ("workerImage", .str ("crowdrelay-worker" ++ ":" ++ acmeVersion)),
    ("crowdRelayBaseUrl", .str "https://acme.example"), ("allowedOrigins", .arr [])])]

def acmePlan : Json := (identified acmeJob acmeId).set "placement" (.str "dedicated")

theorem safeImageRef_acme (name : String)
    (hname : name.toList ≠ [] ∧ ∀ c ∈ name.toList, c ∈ alphanumeric ++ ['.', '/', '_', '-'])
    (hsafe : (let (repository, separator, tag) := Python.rpartition ':' (name ++ ":" ++ acmeVersion).toList
      separator && tag = acmeVersion.toList && safeRepository repository) = true) :
    safeImageRef (.str (name ++ ":" ++ acmeVersion)) acmeVersion = true := by
  have htext : (name ++ ":" ++ acmeVersion).toList = name.toList ++ ':' :: acmeVersion.toList := by simp
  have hmatch : Pattern.fullmatch imagePattern (name ++ ":" ++ acmeVersion) = true :=
    fullmatch_image htext hname (by decide)
  simpa [safeImageRef, Json.asStr, hmatch] using hsafe

theorem acmeJob_passes :
    Passes plainRuntime.toRuntime acmeJob acmeId "acme" "DE" acmeVersion "dedicated" where
  mode := by decide
  schema := by decide
  tenantNamed := ⟨rfl, fullmatch_tenantId.mpr (by decide)⟩
  slugNamed := ⟨rfl, by decide⟩
  identity := by decide
  displayName := by decide
  countryNamed := ⟨rfl, by decide⟩
  desiredNamed := ⟨rfl, fullmatch_shaTag.mpr ⟨replicate 40 '0', by decide, by decide⟩⟩
  images := ⟨safeImageRef_acme "crowdrelay-api" (by decide) (by decide),
    safeImageRef_acme "crowdrelay-worker" (by decide) (by decide)⟩
  baseUrl := by decide
  siteUrl := by decide
  origins := ⟨[], rfl, rfl⟩
  palette := by decide
  members := rfl
  providers := rfl
  profile := by decide
  placed := by decide

theorem acmePlan_safe : safePlan plainRuntime.toRuntime acmeJob = .ok acmePlan :=
  safePlan_of_passes acmeJob_passes

def madeHost : World := emptyHost.setTenant "acme" (emptyHost.tenant "acme")

theorem madeHost_attempts :
    Attempts plainRuntime plainConfig acmePlan emptyHost ([emptyHost] ++ [madeHost]) madeHost :=
  .next .start (.op plainAnswers .here)

theorem madeHost_ready (rt : Runtime) : Ready rt plainConfig acmePlan madeHost := by
  have hrecords : ∀ other, (madeHost.tenant other).deployment = none := by
    intro other
    rw [madeHost, tenant_setTenant]
    split <;> rfl
  have hports : ∀ other, recordedPort madeHost other = none := fun other => by
    rw [recordedPort, hrecords]
  refine ⟨⟨_, rfl⟩, ⟨fun other => readable_of_none (hrecords other), fun value hvalue => ?_, fun _ => ?_⟩,
    fun text htext => ?_⟩
  · rw [hports] at hvalue
    cases hvalue
  · exact ⟨18100, by decide, fun other => by simp [hports], rfl⟩
  · have hnone : (madeHost.tenant (slugOf acmePlan)).env = none := by decide
    cases htext

theorem preparation_recovers_iff_made :
    ∃ v r, Proc.Completes exec madeHost (prepareFiles plainRuntime plainConfig acmePlan).run v r ∧
      (∃ port, r = .ok port) ∧ ∃ text, (v.tenant (slugOf acmePlan)).env = some text ∧
        Complete plainRuntime plainConfig acmePlan text :=
  have hlast : Proc.Completes exec madeHost (prepareFiles plainRuntime plainConfig acmePlan).run _ _ :=
    Proc.completes_finish plainAnswers
  ⟨_, _, hlast, (preparation_recovers_iff acmePlan_safe madeHost_attempts hlast).1.mpr (madeHost_ready _)⟩

/-- Killed when `write_once` has opened the file, an attempt leaves it empty; no later one finds a
password in it. -/
theorem preparation_not_recovered :
    ∃ u, Attempts plainRuntime plainConfig acmePlan emptyHost ([emptyHost] ++ [u]) u ∧
      ∀ v r, Proc.Completes exec u (prepareFiles plainRuntime plainConfig acmePlan).run v r →
        ¬ ((∃ port, r = .ok port) ∧ ∃ text, (v.tenant (slugOf acmePlan)).env = some text ∧
          Complete plainRuntime plainConfig acmePlan text) := by
  have hreached : Proc.Reached exec emptyHost (prepareFiles plainRuntime plainConfig acmePlan).run 11 _ _ :=
    .op plainAnswers (.op plainAnswers (.op plainAnswers (.op plainAnswers (.op plainAnswers
      (.op plainAnswers (.op plainAnswers (.op plainAnswers (.op plainAnswers (.op plainAnswers
        (.op plainAnswers .here))))))))))
  refine ⟨_, .next .start hreached, fun v r hcompletes hrecovered => ?_⟩
  obtain ⟨base, slug, placement, hplaced⟩ := safePlan_placed acmePlan_safe
  obtain rfl := hplaced.slugOf_eq
  have hready := (recovered_iff_ready hplaced hcompletes).mp hrecovered
  exact (hready.intact [] (by decide)).password (by decide)

end Attempts

end ControlPlane.Provisioner
