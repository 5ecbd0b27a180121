import ControlPlane.Notifier

/-!
# Where webhooks are delivered

The guard looks a name up and refuses internal addresses; the HTTP client looks it up again and
connects. IPv6 addresses that carry an IPv4 address are none of the guard's.
-/

namespace ControlPlane.Notifier

open Interleave Interleave.Task Option
open List hiding Vector

abbrev Course := Trace Op Op.Result

abbrev Behaviour := Answers Op Op.Result

abbrev Resolver := Nat → String → Option (List Ip)

def Follows (behaviour : Behaviour) (resolver : Resolver) : Prop :=
  ∀ n name, behaviour n (.lookup name) = resolver n name

def Dials (course : Course) (address : Ip) : Prop := ∃ opened, ⟨.dial address, opened⟩ ∈ course

def StaysOutside (course : Course) : Prop := ∀ address, Dials course address → isBlockedIp address = false

/-- The guard finds nothing to refuse in the name, and the client finds an internal address. -/
def Rebound (crates : Crates) (url : String) (resolver : Resolver) : Prop :=
  ∃ parsed name hname hchars addresses, crates.parseUrl url = some parsed ∧
    parsed.host = some (.domain name hname hchars) ∧ isMetadataDnsName name = false ∧
    ((resolver 0 name).any fun found => found.any isBlockedIp) = false ∧
    resolver 1 name = some addresses ∧ ∃ address ∈ addresses, isBlockedIp address = true

variable {behaviour : Behaviour} {resolver : Resolver} {n : Nat} {crates : Crates} {url : String}
  {body : Json} {addresses : List Ip} {address : Ip} {parsed : Url} {name kind : String}
  {config : Json}

theorem not_dials_nil : ¬ Dials [] address := by
  rintro ⟨opened, hmem⟩
  cases hmem

theorem dials_append {first second : Course} :
    Dials (first ++ second) address ↔ Dials first address ∨ Dials second address := by
  simp only [Dials, mem_append, exists_or]

theorem dials_dial_cons {dialled : Ip} {opened : Bool} {rest : Course} :
    Dials (⟨.dial dialled, opened⟩ :: rest) address ↔ address = dialled ∨ Dials rest address := by
  rw [← singleton_append, dials_append]
  apply or_congr_left
  constructor
  · rintro ⟨opened', hmem⟩
    cases mem_singleton.mp hmem
    rfl
  · rintro rfl
    exact ⟨opened, mem_singleton.mpr rfl⟩

def Op.isQuiet : Op → Prop
  | .dial _ => False
  | _ => True

section Quiet

variable {α β : Type} {t : Delivery α} {f : α → Delivery β}

theorem not_dials_of_quiet (ht : Performs Op.isQuiet t) :
    ¬ Dials (against behaviour n t).1 address := by
  rintro ⟨opened, hmem⟩
  exact ht.of_mem_against _ hmem

theorem dials_bind_quiet (hf : ∀ a, Performs Op.isQuiet (f a)) :
    Dials (against behaviour n (t >>= f)).1 address ↔
      Dials (against behaviour n t).1 address := by
  rcases ht : against behaviour n t with ⟨course, e | a⟩
  · rw [against_bind_of_error ht]
  · rw [against_bind_of_ok ht, dials_append]
    exact or_iff_left (not_dials_of_quiet (hf a))

theorem dials_quiet_bind (ht : Performs Op.isQuiet t) :
    Dials (against behaviour n (t >>= f)).1 address ↔
      ∃ a, (against behaviour n t).2 = .ok a ∧
        Dials (against behaviour (n + (against behaviour n t).1.length) (f a)).1 address := by
  have hquiet : ¬ Dials (against behaviour n t).1 address := not_dials_of_quiet ht
  rcases hcourse : against behaviour n t with ⟨course, e | a⟩
  · rw [against_bind_of_error hcourse]
    rw [hcourse] at hquiet
    simp [hquiet]
  · rw [against_bind_of_ok hcourse, dials_append]
    rw [hcourse] at hquiet
    simp [hquiet]

end Quiet

theorem against_dialEach_cons {rest : List Ip} :
    (against behaviour n (dialEach (address :: rest))).1 =
      ⟨.dial address, behaviour n (.dial address)⟩ ::
        if behaviour n (.dial address) = true then []
        else (against behaviour (n + 1) (dialEach rest)).1 := by
  rw [dialEach, against_bind, against_ask]
  cases hopened : behaviour n (.dial address) <;> simp

theorem mem_of_dials_dialEach
    (hdials : Dials (against behaviour n (dialEach addresses)).1 address) :
    address ∈ addresses := by
  induction addresses generalizing n with
  | nil => exact absurd hdials not_dials_nil
  | cons first rest ih =>
    rw [against_dialEach_cons, dials_dial_cons] at hdials
    rcases hdials with rfl | hrest
    · exact mem_cons_self
    · split_ifs at hrest
      · exact absurd hrest not_dials_nil
      · exact mem_cons_of_mem _ (ih hrest)

theorem dials_dialEach (hrefused : ∀ n address, behaviour n (.dial address) = false)
    (hmem : address ∈ addresses) : Dials (against behaviour n (dialEach addresses)).1 address := by
  induction addresses generalizing n with
  | nil => cases hmem
  | cons first rest ih =>
    rw [against_dialEach_cons, hrefused, if_neg Bool.false_ne_true, dials_dial_cons]
    rcases mem_cons.mp hmem with rfl | hrest
    · exact .inl rfl
    · exact .inr (ih hrest)

theorem quiet_arrange : Performs Op.isQuiet (ask (.arrange addresses) : Delivery _) :=
  performs_ask trivial

theorem dials_transmit_iff :
    Dials (against behaviour n (transmit url body addresses)).1 address ↔
      Dials (against behaviour (n + 1)
        (dialEach (behaviour n (.arrange addresses)).1)).1 address := by
  unfold transmit
  rw [dials_quiet_bind quiet_arrange]
  simp only [against_ask, Except.ok.injEq, exists_eq_left', length_singleton]
  apply dials_bind_quiet
  intro opened
  exact performs_ensure.bind fun _ => (performs_ask trivial).bind fun _ => performs_require

theorem mem_of_dials_transmit
    (hdials : Dials (against behaviour n (transmit url body addresses)).1 address) :
    address ∈ addresses := by
  rw [dials_transmit_iff] at hdials
  exact (behaviour n (.arrange addresses)).2.mem_iff.mp (mem_of_dials_dialEach hdials)

theorem dials_transmit (hrefused : ∀ n address, behaviour n (.dial address) = false)
    (hmem : address ∈ addresses) :
    Dials (against behaviour n (transmit url body addresses)).1 address := by
  rw [dials_transmit_iff]
  exact dials_dialEach hrefused ((behaviour n (.arrange addresses)).2.mem_iff.mpr hmem)

theorem quiet_addressesOf (host : Option Host) : Performs Op.isQuiet (addressesOf host) := by
  unfold addressesOf
  split
  · exact performs_ask trivial
  · exact performs_pure
  · exact performs_pure
  · exact performs_pure

theorem quiet_guardWebhookUrl : Performs Op.isQuiet (guardWebhookUrl crates url) := by
  refine performs_require.bind fun parsed => performs_ensure.bind fun _ => ?_
  split
  · refine (performs_ask trivial).bind fun answer => ?_
    cases answer with
    | none => exact performs_pure
    | some found => exact performs_require
  all_goals exact performs_pure

theorem dials_send_iff (hparsed : crates.parseUrl url = some parsed) :
    Dials (against behaviour n (send crates url body)).1 address ↔
      ∃ found, (against behaviour n (addressesOf parsed.host)).2 = .ok (some found) ∧
        Dials (against behaviour (n + (against behaviour n (addressesOf parsed.host)).1.length)
          (transmit parsed.asStr body found)).1 address := by
  unfold send
  rw [hparsed, dials_quiet_bind performs_require]
  simp only [against_require, elim_some, Except.ok.injEq, exists_eq_left',
    length_nil, Nat.add_zero]
  rw [dials_quiet_bind (quiet_addressesOf parsed.host)]
  constructor
  · rintro ⟨found, hfound, hdials⟩
    cases found with
    | none => exact absurd hdials (not_dials_of_quiet performs_throw)
    | some found => exact ⟨found, hfound, hdials⟩
  · rintro ⟨found, hfound, hdials⟩
    exact ⟨some found, hfound, hdials⟩

theorem dials_postJson_iff :
    Dials (against behaviour 0 (postJson crates url body)).1 address ↔
      (against behaviour 0 (guardWebhookUrl crates url)).2 = .ok () ∧
        Dials (against behaviour (against behaviour 0 (guardWebhookUrl crates url)).1.length
          (send crates url body)).1 address := by
  unfold postJson
  rw [dials_quiet_bind quiet_guardWebhookUrl, Nat.zero_add]
  constructor
  · rintro ⟨_, hpassed, hdials⟩
    exact ⟨hpassed, (dials_bind_quiet fun _ => performs_ensure).mp hdials⟩
  · rintro ⟨hpassed, hdials⟩
    exact ⟨(), hpassed, (dials_bind_quiet fun _ => performs_ensure).mpr hdials⟩

section Guard

variable {parsed : Url} (hparsed : crates.parseUrl url = some parsed)
include hparsed

theorem against_guard_of_blocked (hblocked : isBlockedHost parsed = true) :
    against behaviour 0 (guardWebhookUrl crates url) =
      ([], .error "webhook target points to a blocked address") := by
  unfold guardWebhookUrl
  simp [against_bind, hparsed, ensure, hblocked]

theorem against_guard_of_name {name : String} {hname hchars}
    (hhost : parsed.host = some (.domain name hname hchars)) (hmetadata : isMetadataDnsName name = false) :
    against behaviour 0 (guardWebhookUrl crates url) =
      ([⟨.lookup name, behaviour 0 (.lookup name)⟩],
        (behaviour 0 (.lookup name)).elim (.ok ()) (refusesBlocked name)) := by
  have hopen : isBlockedHost parsed = false := by
    rw [isBlockedHost, hhost]
    exact hmetadata
  unfold guardWebhookUrl
  cases hanswer : behaviour 0 (.lookup name) with
  | none => simp [against_bind, hparsed, ensure, hopen, hhost, hanswer]
  | some found => simp [against_bind, hparsed, ensure, hopen, hhost, hanswer]

end Guard

theorem refusesBlocked_eq_ok :
    refusesBlocked name addresses = .ok () ↔ addresses.any isBlockedIp = false := by
  unfold refusesBlocked
  split_ifs with hblocked <;> simp [hblocked]

theorem guard_passes_iff {answer : Option (List Ip)} :
    answer.elim (.ok ()) (refusesBlocked name) = .ok () ↔
      (answer.any fun found => found.any isBlockedIp) = false := by
  cases answer with
  | none => simp
  | some found => simpa using refusesBlocked_eq_ok

theorem not_blocked_of_literal {found : List Ip} (hopen : isBlockedHost parsed = false)
    (hhost : ∀ name hname hchars, parsed.host ≠ some (.domain name hname hchars))
    (hfound : (against behaviour n (addressesOf parsed.host)).2 = .ok (some found))
    (hmem : address ∈ found) : isBlockedIp address = false := by
  unfold isBlockedHost at hopen
  rcases hcase : parsed.host with _ | ⟨name, hname, hchars⟩ | ⟨a, b, c, d⟩ | ⟨text, hnonempty, hchars⟩
  · rw [hcase] at hopen
    cases hopen
  · exact absurd hcase (hhost name hname hchars)
  · rw [hcase] at hopen hfound
    obtain rfl : [Ip.v4 a b c d] = found := by simpa [addressesOf] using hfound
    rw [mem_singleton.mp hmem]
    exact hopen
  · rw [hcase] at hopen hfound
    obtain ⟨segments, hsegments, rfl⟩ : ∃ segments, segmentsOf text = some segments ∧
        [Ip.v6 segments] = found := by simpa [addressesOf] using hfound
    rw [mem_singleton.mp hmem]
    simpa only [hsegments, all_some, isBlockedIp] using hopen

theorem staysOutside_postJson (hfollows : Follows behaviour resolver)
    (hnever : ¬ Rebound crates url resolver) :
    StaysOutside (against behaviour 0 (postJson crates url body)).1 := by
  intro address hdials
  obtain ⟨hpassed, hdials⟩ := dials_postJson_iff.mp hdials
  cases hparsed : crates.parseUrl url with
  | none =>
    unfold guardWebhookUrl at hpassed
    simp [against_bind, hparsed] at hpassed
  | some parsed =>
    obtain ⟨found, hfound, hdials⟩ := (dials_send_iff hparsed).mp hdials
    have hmem := mem_of_dials_transmit hdials
    cases hblocked : isBlockedHost parsed with
    | true =>
      rw [against_guard_of_blocked hparsed hblocked] at hpassed
      cases hpassed
    | false =>
      by_cases hhost : ∃ name hname hchars, parsed.host = some (.domain name hname hchars)
      · obtain ⟨name, hname, hchars, hhost⟩ := hhost
        have hmetadata : isMetadataDnsName name = false := by
          rw [isBlockedHost, hhost] at hblocked
          exact hblocked
        rw [against_guard_of_name hparsed hhost hmetadata] at hpassed hfound
        rw [guard_passes_iff, hfollows] at hpassed
        obtain hanswer : resolver 1 name = some found := by
          simpa [addressesOf, hhost, hfollows 1 name] using hfound
        cases hinside : isBlockedIp address with
        | false => rfl
        | true =>
          exact absurd ⟨parsed, name, hname, hchars, found, hparsed, hhost, hmetadata, hpassed,
            hanswer, address, hmem, hinside⟩ hnever
      · push Not at hhost
        exact not_blocked_of_literal hblocked hhost hfound hmem

/-- The names resolve as the resolver has it, and no connection is ever opened. -/
def refusing (resolver : Resolver) : Behaviour
  | n, .lookup name => resolver n name
  | _, .arrange addresses => ⟨addresses, .refl _⟩
  | _, .dial _ => false
  | _, .post _ => none

theorem dials_of_rebound (body : Json) (hrebound : Rebound crates url resolver) :
    ∃ address, Dials (against (refusing resolver) 0 (postJson crates url body)).1 address ∧
      isBlockedIp address = true := by
  obtain ⟨parsed, name, hname, hchars, found, hparsed, hhost, hmetadata, hfirst, hsecond, address,
    hmem, hinside⟩ := hrebound
  refine ⟨address, dials_postJson_iff.mpr ?_, hinside⟩
  rw [against_guard_of_name hparsed hhost hmetadata]
  refine ⟨guard_passes_iff.mpr hfirst, (dials_send_iff hparsed).mpr ⟨found, ?_, ?_⟩⟩
  · rw [hhost]
    exact congrArg Except.ok hsecond
  · exact dials_transmit (fun _ _ => rfl) hmem

def Client.course (client : Client) (kind label : String) (config : Json) (event : String)
    (payload : Json) (behaviour : Behaviour) : Course :=
  (against behaviour 0 (client.deliver kind label config event payload)).1

variable {client : Client}

theorem course_eq_postJson {label event : String} {payload : Json}
    (hmessage : client.message kind label config event payload = .ok (url, body)) :
    client.course kind label config event payload behaviour =
      (against behaviour 0 (postJson client.crates url body)).1 := by
  unfold Client.course Client.deliver
  simp [against_bind, hmessage]

theorem message_of_accepted {value : Option String} (hkind : kind = "discord" ∨ kind = "webhook")
    (haccepted : notifierTarget client.crates kind value = .ok config) :
    ∃ url, textAt "url" config = some url ∧ ∀ label event payload, ∃ body,
      client.message kind label config event payload = .ok (url, body) := by
  have hconfig : ∃ url, config = .obj [("url", .str url)] := by
    cases value with
    | none => rcases hkind with rfl | rfl <;> cases haccepted
    | some raw =>
      cases hparsed : client.crates.parseUrl (Text.trim raw) with
      | none =>
        rcases hkind with rfl | rfl <;>
          simp [notifierTarget, hparsed, bind, Except.bind] at haccepted
      | some parsed =>
        refine ⟨parsed.asStr, ?_⟩
        rcases hkind with rfl | rfl
        · simp only [notifierTarget, hparsed, bind, Except.bind, elim_some] at haccepted
          split_ifs at haccepted
          exact (Except.ok.inj haccepted).symm
        · simp only [notifierTarget, hparsed, bind, Except.bind, elim_some] at haccepted
          split_ifs at haccepted
          exact (Except.ok.inj haccepted).symm
  obtain ⟨url, rfl⟩ := hconfig
  refine ⟨url, rfl, fun label event payload => ?_⟩
  rcases hkind with rfl | rfl <;> exact ⟨_, rfl⟩

/-- **Webhooks stay outside.** For an accepted target and any answers of the resolver, no internal
address is tried, exactly if the client does not look up an internal address for a name the guard
has let pass. -/
theorem webhook_stays_outside_iff (client : Client) {kind : String} {value : Option String}
    {config : Json} (label event : String) (payload : Json) (resolver : Resolver)
    (hkind : kind = "discord" ∨ kind = "webhook")
    (haccepted : notifierTarget client.crates kind value = .ok config) :
    ∃ url, textAt "url" config = some url ∧
      ((∀ behaviour, Follows behaviour resolver →
          StaysOutside (client.course kind label config event payload behaviour)) ↔
        ¬ Rebound client.crates url resolver) := by
  obtain ⟨url, hurl, hmessage⟩ := message_of_accepted hkind haccepted
  obtain ⟨body, hmessage⟩ := hmessage label event payload
  refine ⟨url, hurl, fun houtside hrebound => ?_, fun hnever behaviour hfollows => ?_⟩
  · obtain ⟨address, hdials, hinside⟩ := dials_of_rebound body hrebound
    rw [← course_eq_postJson hmessage] at hdials
    have hnot := houtside (refusing resolver) (fun _ _ => rfl) address hdials
    rw [hinside] at hnot
    cases hnot
  · rw [course_eq_postJson hmessage]
    exact staysOutside_postJson hfollows hnever

def hookUrl : Url :=
  ⟨"https", "", none, some (.domain "hooks.example" (by decide) (by decide)), none, "/", none, none⟩

def hookClient : Client where
  crates :=
    { parseUrl := fun _ => some hookUrl
      parseHost := fun _ => none
      contrast := fun _ _ => none
      hashPassword := fun _ => none }
  render := fun _ => ""
  emailRelayUrl := none

def hookConfig : Json := .obj [("url", .str hookUrl.asStr)]

theorem hookConfig_accepted :
    notifierTarget hookClient.crates "webhook" (some "https://hooks.example/") = .ok hookConfig := by
  rfl

def publicAnswer : Resolver := fun _ _ => some [.v4 93 184 215 14]

theorem webhook_stays_outside_public :
    notifierTarget hookClient.crates "webhook" (some "https://hooks.example/") = .ok hookConfig ∧
      ∀ behaviour, Follows behaviour publicAnswer →
        StaysOutside (hookClient.course "webhook" "ops" hookConfig "runtime.down" .null behaviour) := by
  obtain ⟨url, -, houtside⟩ := webhook_stays_outside_iff hookClient "ops" "runtime.down" .null
    publicAnswer (.inr rfl) hookConfig_accepted
  refine ⟨hookConfig_accepted, houtside.mpr ?_⟩
  rintro ⟨parsed, name, hname, hchars, found, -, -, -, -, hanswer, address, hmem, hinside⟩
  obtain rfl := some.inj hanswer
  rw [mem_singleton.mp hmem] at hinside
  exact absurd hinside (by decide)

/-- The second lookup of a name answers with an address of the host itself. -/
def rebindingAnswer : Resolver := fun n _ =>
  some [if n = 0 then .v4 93 184 215 14 else .v4 127 0 0 1]

theorem webhook_reaches_inside :
    notifierTarget hookClient.crates "webhook" (some "https://hooks.example/") = .ok hookConfig ∧
      Dials (hookClient.course "webhook" "ops" hookConfig "runtime.down" .null
        (refusing rebindingAnswer)) (.v4 127 0 0 1) ∧
      isBlockedIp (.v4 127 0 0 1) = true := by
  refine ⟨hookConfig_accepted, ⟨false, ?_⟩, by decide⟩
  exact .tail _ (.tail _ (.tail _ (.head _)))

/-- The IPv6 addresses that carry an IPv4 address. -/
inductive Carrier where
  | mapped
  | compatible
  | translated

def Carrier.carry (carrier : Carrier) (a b c d : Fin 256) : Vector (Fin 65536) 8 :=
  let high := Fin.ofNat 65536 (a * 256 + b)
  let low := Fin.ofNat 65536 (c * 256 + d)
  match carrier with
  | .mapped => #v[0, 0, 0, 0, 0, 0xffff, high, low]
  | .compatible => #v[0, 0, 0, 0, 0, 0, high, low]
  | .translated => #v[0x64, 0xff9b, 0, 0, 0, 0, high, low]

theorem blockedV6_compatible (high low : Fin 65536) :
    blockedV6 #v[0, 0, 0, 0, 0, 0, high, low] = true ↔ high = 0 ∧ (low = 0 ∨ low = 1) := by
  simp [blockedV6, loopbackV6, unspecifiedV6]
  grind

variable {a b c d : Fin 256} {carrier : Carrier}

theorem blockedV6_carry (hblocked : blockedV4 a b c d = true) :
    blockedV6 (carrier.carry a b c d) = true ↔
      carrier = .compatible ∧ a = 0 ∧ b = 0 ∧ c = 0 ∧ d = 0 := by
  cases carrier with
  | mapped => simp [blockedV6, Carrier.carry, loopbackV6, unspecifiedV6]
  | translated => simp [blockedV6, Carrier.carry, loopbackV6, unspecifiedV6]
  | compatible =>
    have hzero (x y : Fin 256) : Fin.ofNat 65536 (x * 256 + y) = 0 ↔ x = 0 ∧ y = 0 := by
      simp only [Fin.ext_iff, Fin.ofNat]
      omega
    have hone : Fin.ofNat 65536 (c * 256 + d) = 1 ↔ c = 0 ∧ d = 1 := by
      simp only [Fin.ext_iff, Fin.ofNat]
      omega
    -- the loopback address would carry 0.0.0.1, which is not blocked
    have hloopback : ¬ (a = 0 ∧ b = 0 ∧ c = 0 ∧ d = 1) := by
      rintro ⟨rfl, rfl, rfl, rfl⟩
      exact absurd hblocked (by decide)
    rw [Carrier.carry, blockedV6_compatible, hzero, hzero, hone]
    grind

/-- The URL names the address in text. -/
def Names (url : Url) (segments : Vector (Fin 65536) 8) : Prop :=
  ∃ address hne hchars, url.host = some (.ipv6 address hne hchars) ∧
    segmentsOf address = some segments

theorem carried_stays_blocked_iff (carrier : Carrier) (hblocked : blockedV4 a b c d = true) :
    (isBlockedIp (.v6 (carrier.carry a b c d)) = true ∧
      ∀ crates kind raw parsed, kind = "discord" ∨ kind = "webhook" →
        crates.parseUrl (Text.trim raw) = some parsed → parsed.scheme = "https" →
        Names parsed (carrier.carry a b c d) →
        ∃ e, notifierTarget crates kind (some raw) = .error e) ↔
      carrier = .compatible ∧ a = 0 ∧ b = 0 ∧ c = 0 ∧ d = 0 := by
  rw [← blockedV6_carry hblocked]
  refine ⟨And.left, fun hcarried => ⟨hcarried, ?_⟩⟩
  rintro crates kind raw parsed hkind hparsed - ⟨address, hne, hchars, hhost, hsegments⟩
  rcases hkind with rfl | rfl
  · have hother : ¬ (parsed.host.map Host.asStr).any discordHosts.contains := by
      have hbracket : (Host.ipv6 address hne hchars).asStr.toList.head? = some '[' := by
        simp [Host.asStr]
      rw [hhost, map_some, any_some, contains_eq_mem, decide_eq_true_eq,
        discordHosts, mem_cons, mem_singleton]
      rintro (hname | hname) <;> rw [hname] at hbracket <;> exact absurd hbracket (by decide)
    simp only [notifierTarget, hparsed, bind, Except.bind, elim_some]
    rw [if_pos (.inr (.inl hother))]
    exact ⟨_, rfl⟩
  · have hguard : isBlockedHost parsed = true := by simp [isBlockedHost, hhost, hsegments, hcarried]
    simp only [notifierTarget, hparsed, bind, Except.bind, elim_some, hguard, if_true]
    split_ifs <;> exact ⟨_, rfl⟩

theorem carried_stays_blocked_iff_unspecified :
    isBlockedIp (.v6 (Carrier.compatible.carry 0 0 0 0)) = true :=
  ((carried_stays_blocked_iff .compatible (by decide)).mpr ⟨rfl, rfl, rfl, rfl, rfl⟩).1

def mappedUrl : Url :=
  ⟨"https", "", none, some (.ipv6 "::ffff:7f00:1" (by decide) (by decide)), none, "/", none, none⟩

/-- The host itself is blocked, and accepted when it is written as an IPv4-mapped address. -/
theorem mapped_loopback_accepted :
    blockedV4 127 0 0 1 = true ∧ isBlockedIp (.v6 (Carrier.mapped.carry 127 0 0 1)) = false ∧
      Names mappedUrl (Carrier.mapped.carry 127 0 0 1) ∧
      notifierTarget { hookClient.crates with parseUrl := fun _ => some mappedUrl } "webhook"
        (some "https://[::ffff:7f00:1]/") = .ok (.obj [("url", .str mappedUrl.asStr)]) :=
  ⟨by decide, by decide, ⟨_, _, _, rfl, by decide⟩, rfl⟩

end ControlPlane.Notifier
