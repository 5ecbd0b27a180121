import ControlPlane.Proof.Placement
import ControlPlane.Upstream.Client

/-!
# Where a provisioned tenant is reached

The alias recorded for a tenant is four octets longer than its slug, and slugs may fill a whole DNS
label.
-/

namespace ControlPlane.Upstream

open Store List

/-- A host name, in lowercase, of one label. -/
structure DnsLabel (name : String) : Prop where
  ne : name.toList ≠ []
  le : name.toList.length ≤ 63
  chars : ∀ c ∈ name.toList, isSlugChar c = true
  head : name.toList.head? ≠ some '-'
  last : name.toList.getLast? ≠ some '-'

/-- The result of a deployment leads to its tenant. -/
def Addressable (crates : Crates) (result : JobResult) : Prop :=
  ∃ value url host, result.localApiUrl = some value ∧
    validateManagementTarget crates value = .ok url ∧ url.host = some host ∧ DnsLabel host.asStr

abbrev originOf (host : Host) : Url := ⟨"http", "", none, some host, some 8080, "/", none, none⟩

/-- What the `url` crate makes of a name in an origin: the domain of that name, or nothing if it
begins like an internationalized name and is none. -/
structure ParsesName (crates : Crates) (name : String) : Prop where
  origin : crates.parseUrl ("http://" ++ name ++ ":8080") = (crates.parseHost name).map originOf
  domain : ∀ host, crates.parseHost name = some host → ∃ hne hchars, host = .domain name hne hchars

variable {crates : Crates} {raw slug workerId : String} {completion : ProvisioningCompletion}
  {completedAt : Instant}

theorem alias_chars (hslug : SlugText slug) : ∀ c ∈ (slug ++ "-api").toList, isSlugChar c = true := by
  rw [String.toList_append, forall_mem_append]
  exact ⟨hslug.chars, by decide⟩

theorem isPrivateDnsName_alias (hslug : SlugText slug) :
    isPrivateDnsName (slug ++ "-api") = true := by
  have hdot : '.' ∉ (slug ++ "-api").toList := fun hc => absurd (alias_chars hslug '.' hc) (by decide)
  have hall : Text.all (fun c => Text.isAsciiAlphanumeric c || c = '-' || c = '_')
      (slug ++ "-api") = true := by
    refine all_eq_true.mpr fun c hc => ?_
    have hchar := alias_chars hslug c hc
    simp only [isSlugChar, Bool.or_eq_true, beq_iff_eq] at hchar
    simp only [Text.isAsciiAlphanumeric, Bool.or_eq_true, decide_eq_true_eq]
    tauto
  simp [isPrivateDnsName, hall, by simpa using hdot]

theorem dnsLabel_alias_iff (hslug : SlugText slug) :
    DnsLabel (slug ++ "-api") ↔ slug.toList.length ≤ 59 := by
  have hlength : (slug ++ "-api").toList.length = slug.toList.length + 4 := by simp
  refine ⟨fun hlabel => ?_, fun hle => ⟨by simp, ?_, alias_chars hslug, ?_, by simp⟩⟩
  · have hle := hlabel.le
    omega
  · omega
  · have hne : slug.toList ≠ [] := length_pos_iff.mp (Nat.lt_of_lt_of_le (by decide) hslug.two_le)
    rw [String.toList_append, head?_append_of_ne_nil _ hne]
    exact hslug.head

theorem validateManagementTarget_alias (hslug : SlugText slug)
    (hparses : ParsesName crates (slug ++ "-api")) :
    validateManagementTarget crates (localApiUrl slug) = (crates.parseHost (slug ++ "-api")).elim
      (.error (.invalidInput "invalid upstream target")) fun host => .ok (originOf host) := by
  have hurl : localApiUrl slug = "http://" ++ (slug ++ "-api") ++ ":8080" := by
    rw [localApiUrl, String.append_assoc, String.append_assoc, String.append_assoc]
    rfl
  rw [validateManagementTarget, hurl, hparses.origin]
  cases hhost : crates.parseHost (slug ++ "-api") with
  | none => rfl
  | some host =>
    obtain ⟨hne, hchars, rfl⟩ := hparses.domain host hhost
    simp [bind, Except.bind, pure, Except.pure, isPrivateTarget, isPrivateDnsName_alias hslug]

theorem addressable_iff_label (hslug : SlugText slug) (hparses : ParsesName crates (slug ++ "-api")) :
    Addressable crates (completionResult slug workerId completion completedAt) ↔
      DnsLabel (slug ++ "-api") ∧ (crates.parseHost (slug ++ "-api")).isSome = true := by
  have htarget := validateManagementTarget_alias hslug hparses
  cases hparsed : crates.parseHost (slug ++ "-api") with
  | none =>
    refine iff_of_false ?_ (by simp)
    rintro ⟨_, url, host, ⟨⟩, hvalid, -⟩
    simp [htarget, hparsed] at hvalid
  | some host =>
    obtain ⟨hne, hchars, rfl⟩ := hparses.domain host hparsed
    rw [hparsed] at htarget
    refine ⟨?_, fun hlabel => ⟨_, _, _, rfl, htarget, rfl, hlabel.1⟩⟩
    rintro ⟨_, url, host, ⟨⟩, hvalid, hhost, hlabel⟩
    cases htarget.symm.trans hvalid
    cases hhost
    exact ⟨hlabel, rfl⟩

/-- **Which tenants can be addressed.** The management URL recorded for an accepted slug passes
`validate_management_target` with a single DNS label as its host exactly if the slug has at most 59
octets and the `url` crate takes the alias for a host. -/
theorem tenant_addressable_iff (hslug : Validation.slug raw = .ok slug)
    (hparses : ParsesName crates (slug ++ "-api")) :
    Addressable crates (completionResult slug workerId completion completedAt) ↔
      slug.toList.length ≤ 59 ∧ (crates.parseHost (slug ++ "-api")).isSome = true := by
  have htext : SlugText slug := ValidSlug.text ⟨raw, hslug⟩
  rw [addressable_iff_label htext hparses, dnsLabel_alias_iff htext]

theorem tenant_addressable_iff_acme :
    let host : Host := .domain "acme-api" (by decide) (by decide)
    Addressable ⟨fun _ => some (originOf host), fun _ => some host, fun _ _ => none, fun _ => none⟩
      (completionResult "acme" "worker" ⟨18100, 1, 1, ""⟩ 0) :=
  (tenant_addressable_iff (show Validation.slug "acme" = .ok "acme" by decide)
    ⟨rfl, fun _ hhost => ⟨_, _, (Option.some.inj hhost).symm⟩⟩).mpr ⟨by decide, rfl⟩

/-- A slug of sixty octets makes a host of sixty-four. -/
theorem tenant_unaddressable :
    let slug := String.ofList (replicate 60 'a')
    Validation.slug slug = .ok slug ∧ ∀ crates workerId completion completedAt,
      ParsesName crates (slug ++ "-api") →
        ¬ Addressable crates (completionResult slug workerId completion completedAt) := by
  intro slug
  have hslug : Validation.slug slug = .ok slug := by decide
  refine ⟨hslug, fun crates workerId completion completedAt hparses haddressable => ?_⟩
  have htext : SlugText slug := ValidSlug.text ⟨_, hslug⟩
  have hle := (dnsLabel_alias_iff htext).mp ((addressable_iff_label htext hparses).mp haddressable).1
  revert hle
  decide

end ControlPlane.Upstream
