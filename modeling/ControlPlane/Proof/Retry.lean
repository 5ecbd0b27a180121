import ControlPlane.Interleave.Trace
import ControlPlane.Upstream.Client

/-!
# Requests that are written twice

An exchange that fails on a reused connection is repeated on a new one: safely exactly if nothing of
a response had come and the request is a read or has a key.
-/

namespace ControlPlane.Upstream

open Interleave Interleave.Task List Option

abbrev Course := Trace Op Op.Result

abbrev Behaviour := Answers Op Op.Result

variable {client : Client} {behaviour : Behaviour} {n conn : Nat} {address : String} {wire : Bytes}
  {step : (o : Op) × o.Result} {baseUrl token : String}

def isWrite : (o : Op) × o.Result → Bool
  | ⟨.write _ _, _⟩ => true
  | _ => false

def writes (course : Course) : Nat := course.countP isWrite

@[simp]
theorem writes_append {first second : Course} : writes (first ++ second) = writes first + writes second :=
  countP_append

@[simp]
theorem writes_cons {rest : Course} :
    writes (step :: rest) = writes rest + if isWrite step then 1 else 0 := countP_cons

@[simp]
theorem writes_nil : writes [] = 0 := rfl

def broughtBy : (o : Op) × o.Result → Bytes
  | ⟨.read _, some bytes⟩ => bytes
  | _ => []

def delivered (course : Course) : Bytes := course.flatMap broughtBy

def Call.asked : Call → Option Asked
  | .request _ _ asked | .requestManagement _ _ asked => some asked
  | .requestManagementBinary _ _ upload => some upload.asked
  | .sweepPool => none

/-- The request on the wire has a valid key in its headers. -/
def Keyed (client : Client) (asked : Asked) (wire : Bytes) : Prop :=
  ∃ host token key, wire = client.wire asked host token ∧
    ("Idempotency-Key", key) ∈ client.headers asked host token ∧ validIdempotencyKey key = true

/-- The request was written to a reused connection before, nothing has come back, and the request is a
read or has a key. -/
structure SafelyRepeated (client : Client) (asked : Asked) (before : Course) (wire : Bytes) : Prop where
  reused : ∃ address conn written rest,
    before = ⟨.takePooled address, some conn⟩ :: ⟨.write conn wire, written⟩ :: rest
  silent : delivered before = []
  keyed : asked.method ≠ "GET" → Keyed client asked wire

/-- Whenever the request is written after it has been written before, that is safe. -/
def RetriesSafely (client : Client) (call : Call) (course : Course) : Prop :=
  ∀ asked, call.asked = some asked → ∀ before conn wire written after,
    course = before ++ ⟨.write conn wire, written⟩ :: after → 0 < writes before →
    SafelyRepeated client asked before wire

def Op.isRead : Op → Prop
  | .read _ => True
  | _ => False

section Reading

variable {buf : Bytes} {done : Bytes → Bool}

theorem performs_readInto : Performs Op.isRead (readInto conn buf) := by
  refine (performs_ask trivial).bind fun answer => ?_
  split
  · simp
  · simp
  · split_ifs <;> simp

theorem performs_readUntil : Performs Op.isRead (readUntil conn done buf) := by
  fun_induction readUntil conn done buf with
  | case1 buf hdone => simp
  | case2 buf hdone ih =>
    refine performs_readInto.bind fun grown => ?_
    cases grown with
    | none => simp
    | some grown => exact ih grown

theorem performs_readTrailers : Performs Op.isRead (readTrailers conn buf) := by
  refine performs_readInto.bind fun grown => ?_
  cases grown with
  | none => simp
  | some grown => exact performs_readUntil

theorem performs_readToEnd : Performs Op.isRead (readToEnd conn buf) :=
  performs_readUntil.bind fun _ => performs_pure

theorem performs_readChunked {bodyStart : Nat} :
    Performs Op.isRead (readChunked conn bodyStart buf) := by
  refine performs_readUntil.bind fun buf => ?_
  split_ifs
  · simp
  · exact performs_readTrailers.bind fun _ => performs_pure
  · simp

theorem performs_readSized {needed : Nat} : Performs Op.isRead (readSized conn needed buf) :=
  performs_readUntil.bind fun _ => performs_ensure.bind fun _ => performs_pure

theorem performs_readFramedResponse : Performs Op.isRead (readFramedResponse conn) := by
  refine performs_readUntil.bind fun buf => ?_
  split
  · simp
  · split_ifs
    · simp
    · refine performs_require.bind fun framing => ?_
      unfold readBody
      split_ifs
      · exact performs_readToEnd
      · exact performs_readChunked
      · split
        · exact performs_readSized
        · exact performs_readToEnd

end Reading

theorem against_attempt (behaviour : Behaviour) (n conn : Nat) (wire : Bytes) :
    ∃ written reads result, against behaviour n (attempt conn wire) =
        (⟨.write conn wire, written⟩ :: reads, result) ∧ writes reads = 0 := by
  refine ⟨_, _, _, rfl, ?_⟩
  have hread : Performs Op.isRead
      (do ensure (behaviour n (.write conn wire) = true) .unreachable
          readFramedResponse conn) :=
    performs_ensure.bind fun _ => performs_readFramedResponse
  apply countP_eq_zero.mpr
  intro ⟨o, answer⟩ hmem hwrite
  have ho := hread.of_mem_against ⟨o, answer⟩ hmem
  cases o with
  | write c w => exact ho
  | _ => cases hwrite

theorem writes_settle {answered : Bytes × Bool} :
    writes (against behaviour n (settle address conn answered)).1 = 0 := by
  obtain ⟨response, canReuse⟩ := answered
  cases canReuse <;> rfl

theorem against_attempt_settle (behaviour : Behaviour) (n conn : Nat) (address : String)
    (wire : Bytes) :
    ∃ written rest, writes rest = 0 ∧
      (against behaviour n (attempt conn wire >>= settle address conn)).1 =
        ⟨.write conn wire, written⟩ :: rest := by
  obtain ⟨written, reads, result, hattempt, hreads⟩ := against_attempt behaviour n conn wire
  cases result with
  | error e => exact ⟨written, reads, hreads, by rw [against_bind_of_error hattempt]⟩
  | ok answered =>
    rw [against_bind_of_ok hattempt]
    refine ⟨written, reads ++ _, ?_, cons_append⟩
    rw [writes_append, hreads, writes_settle]

theorem against_exchangeAnew (behaviour : Behaviour) (n : Nat) (address : String) (wire : Bytes) :
    (∃ e, behaviour n (.connect address) = .error e ∧
      (against behaviour n (exchangeAnew address wire)).1 = [⟨.connect address, .error e⟩]) ∨
    ∃ conn written rest, behaviour n (.connect address) = .ok conn ∧ writes rest = 0 ∧
      (against behaviour n (exchangeAnew address wire)).1 =
        ⟨.connect address, .ok conn⟩ :: ⟨.write conn wire, written⟩ :: rest := by
  unfold exchangeAnew
  cases hconnect : behaviour n (.connect address) with
  | error e =>
    have hopen : against behaviour n (connect address) =
        ([⟨.connect address, .error e⟩], .error e) := by
      simp [connect, against_bind, hconnect]
    exact .inl ⟨e, rfl, by rw [against_bind_of_error hopen]⟩
  | ok conn =>
    have hopen : against behaviour n (connect address) =
        ([⟨.connect address, .ok conn⟩], .ok conn) := by
      simp [connect, against_bind, hconnect]
    obtain ⟨written, rest, hrest, hcourse⟩ :=
      against_attempt_settle behaviour (n + 1) conn address wire
    refine .inr ⟨conn, written, rest, rfl, hrest, ?_⟩
    rw [against_bind_of_ok hopen]
    exact congrArg (_ :: ·) hcourse

def firstAttempt (behaviour : Behaviour) (conn : Nat) (wire : Bytes) :
    Course × Except ApiError (Bytes × Bool) := against behaviour 1 (attempt conn wire)

/-- A reused connection is at hand, the attempt on it fails and a new one is opened. -/
structure Repeats (behaviour : Behaviour) (address : String) (conn : Nat) (wire : Bytes) : Prop where
  taken : behaviour 0 (.takePooled address) = some conn
  failed : ∃ e, (firstAttempt behaviour conn wire).2 = .error e
  opened : ∃ next,
    behaviour (1 + (firstAttempt behaviour conn wire).1.length) (.connect address) = .ok next

theorem against_exchange (behaviour : Behaviour) (address : String) (wire : Bytes) :
    (writes (against behaviour 0 (exchange address wire)).1 ≤ 1 ∧
      ∀ conn, ¬ Repeats behaviour address conn wire) ∨
    ∃ conn written reads next again rest, Repeats behaviour address conn wire ∧
      (firstAttempt behaviour conn wire).1 = ⟨.write conn wire, written⟩ :: reads ∧
      writes reads = 0 ∧ writes rest = 0 ∧
      (against behaviour 0 (exchange address wire)).1 =
        (⟨.takePooled address, some conn⟩ :: ⟨.write conn wire, written⟩ :: reads ++
          [⟨.connect address, .ok next⟩]) ++ ⟨.write next wire, again⟩ :: rest := by
  cases htaken : behaviour 0 (.takePooled address) with
  | none =>
    have hcourse : (against behaviour 0 (exchange address wire)).1 =
        ⟨.takePooled address, none⟩ :: (against behaviour 1 (exchangeAnew address wire)).1 := by
      simp [exchange, against_bind, htaken]
    refine .inl ⟨?_, fun conn hrepeats => by rw [hrepeats.taken] at htaken; cases htaken⟩
    rw [hcourse]
    rcases against_exchangeAnew behaviour 1 address wire with
      ⟨e, -, hanew⟩ | ⟨next, again, rest, -, hrest, hanew⟩
    · simp [hanew, isWrite]
    · simp [hanew, isWrite, hrest]
  | some conn =>
    have hsame : ∀ conn', Repeats behaviour address conn' wire → conn' = conn := by
      intro conn' hrepeats
      have htaken' := hrepeats.taken
      rw [htaken] at htaken'
      exact (some.inj htaken').symm
    obtain ⟨written, reads, result, hattempt, hreads⟩ := against_attempt behaviour 1 conn wire
    have hfirst : firstAttempt behaviour conn wire =
        (⟨.write conn wire, written⟩ :: reads, result) := hattempt
    cases result with
    | ok answered =>
      have hcourse : (against behaviour 0 (exchange address wire)).1 =
          ⟨.takePooled address, some conn⟩ :: ⟨.write conn wire, written⟩ :: reads ++
            (against behaviour (1 + (reads.length + 1)) (settle address conn answered)).1 := by
        simp [exchange, against_bind, htaken, hattempt]
      refine .inl ⟨?_, fun conn' hrepeats => ?_⟩
      · rw [hcourse]
        simp [isWrite, hreads, writes_settle]
      · obtain ⟨e, he⟩ := hrepeats.failed
        rw [hsame conn' hrepeats, hfirst] at he
        cases he
    | error e =>
      have hcourse : (against behaviour 0 (exchange address wire)).1 =
          ⟨.takePooled address, some conn⟩ :: ⟨.write conn wire, written⟩ :: reads ++
            (against behaviour (1 + (reads.length + 1)) (exchangeAnew address wire)).1 := by
        simp [exchange, against_bind, htaken, hattempt]
      rcases against_exchangeAnew behaviour (1 + (reads.length + 1)) address wire with
        ⟨e', hconnect, hanew⟩ | ⟨next, again, rest, hconnect, hrest, hanew⟩
      · refine .inl ⟨?_, fun conn' hrepeats => ?_⟩
        · rw [hcourse, hanew]
          simp [isWrite, hreads]
        · obtain ⟨next, hnext⟩ := hrepeats.opened
          rw [hsame conn' hrepeats, hfirst] at hnext
          rw [length_cons, hconnect] at hnext
          cases hnext
      · refine .inr ⟨conn, written, reads, next, again, rest, ?_, by rw [hfirst], hreads, hrest, ?_⟩
        · refine ⟨htaken, ⟨e, by rw [hfirst]⟩, next, ?_⟩
          rw [hfirst, length_cons]
          exact hconnect
        · rw [hcourse, hanew]
          simp

def Client.sent (client : Client) : Call → Except ApiError (String × Bytes)
  | .request tenantId baseUrl asked => do
    client.outgoing baseUrl asked (← client.checkRequest tenantId asked)
  | .requestManagement tenantId baseUrl asked => do
    client.outgoing baseUrl asked (← client.checkManagement tenantId asked)
  | .requestManagementBinary tenantId baseUrl upload => do
    client.outgoing baseUrl upload.asked (← client.checkUpload tenantId upload)
  | .sweepPool => .error .notFound

def Client.course (client : Client) (call : Call) (behaviour : Behaviour) : Course :=
  (against behaviour 0 (client.serve call)).1

theorem course_of_checked {asked : Asked} {checked : Except ApiError String} :
    (against behaviour 0 ((require checked >>= client.requestAuthorized baseUrl asked) >>=
      fun answer => pure (some answer))).1 =
    match checked.bind (client.outgoing baseUrl asked) with
    | .ok (address, wire) => (against behaviour 0 (exchange address wire)).1
    | .error _ => [] := by
  cases checked with
  | error e => simp [against_bind, Except.bind]
  | ok token =>
    unfold Client.requestAuthorized
    cases hout : client.outgoing baseUrl asked token with
    | error e => simp [against_bind, Except.bind, hout]
    | ok sent =>
      obtain ⟨address, wire⟩ := sent
      rcases hexchange : against behaviour 0 (exchange address wire) with ⟨course, e | response⟩
      · simp [against_bind, Except.bind, hout, hexchange]
      · simp [against_bind, Except.bind, hout, hexchange]

variable {call : Call}

theorem course_eq (client : Client) (behaviour : Behaviour) {asked : Asked}
    (hasked : call.asked = some asked) :
    client.course call behaviour =
      match client.sent call with
      | .ok (address, wire) => (against behaviour 0 (exchange address wire)).1
      | .error _ => [] := by
  cases call with
  | request tenantId baseUrl asked => exact course_of_checked
  | requestManagement tenantId baseUrl asked => exact course_of_checked
  | requestManagementBinary tenantId baseUrl upload => exact course_of_checked
  | sweepPool => cases hasked

theorem wire_of_outgoing {asked : Asked}
    (hout : client.outgoing baseUrl asked token = .ok (address, wire)) :
    ∃ host, wire = client.wire asked host token := by
  unfold Client.outgoing at hout
  cases htarget : validateManagementTarget client.crates baseUrl with
  | error e => simp [htarget, bind, Except.bind] at hout
  | ok target =>
    cases hhost : target.host with
    | none => simp [htarget, hhost, bind, Except.bind] at hout
    | some host =>
      obtain ⟨-, rfl⟩ : _ ∧ client.wire asked _ token = wire := by
        simpa [htarget, hhost, bind, Except.bind, pure, Except.pure] using hout
      exact ⟨_, rfl⟩

theorem mem_headers_iff {asked : Asked} {host key : String} :
    ("Idempotency-Key", key) ∈ client.headers asked host token ↔ asked.idempotencyKey = some key := by
  have hlength : ∀ length, ("Idempotency-Key", key) ∉
      contentLengthHeader asked.method asked.body.contentType length := by
    unfold contentLengthHeader
    split_ifs <;> simp
  simp [Client.headers, hlength]

section Checks

variable {tenantId : Uuid} {asked : Asked} {token key : String}

theorem validKey_of_checkRequest (hchecked : client.checkRequest tenantId asked = .ok token)
    (hmethod : asked.method ≠ "GET") (hkey : asked.idempotencyKey = some key) :
    validIdempotencyKey key = true := by
  unfold Client.checkRequest at hchecked
  simp only [bind, Except.bind] at hchecked
  split_ifs at hchecked with hpath hallowed hinvalid
  by_contra hbad
  simp_all

theorem validKey_of_checkManagement (hchecked : client.checkManagement tenantId asked = .ok token)
    (hkey : asked.idempotencyKey = some key) : validIdempotencyKey key = true := by
  unfold Client.checkManagement at hchecked
  simp only [bind, Except.bind] at hchecked
  split_ifs at hchecked with hallowed hmissing hinvalid
  simpa [hkey] using hinvalid

theorem validKey_of_checkUpload {upload : Upload}
    (hchecked : client.checkUpload tenantId upload = .ok token)
    (hkey : upload.idempotencyKey = some key) : validIdempotencyKey key = true := by
  unfold Client.checkUpload at hchecked
  simp only [bind, Except.bind] at hchecked
  split_ifs at hchecked with hallowed hmissing
  simpa [hkey] using hmissing

end Checks

theorem bind_eq_ok {α β : Type} {x : Except ApiError α} {f : α → Except ApiError β} {b : β}
    (h : x.bind f = .ok b) : ∃ a, x = .ok a ∧ f a = .ok b := by
  cases x with
  | error e => cases h
  | ok a => exact ⟨a, rfl, h⟩

theorem keyed_iff {asked : Asked} (hasked : call.asked = some asked)
    (hsent : client.sent call = .ok (address, wire)) (hmethod : asked.method ≠ "GET") :
    Keyed client asked wire ↔ asked.idempotencyKey.isSome = true := by
  constructor
  · rintro ⟨host, token, key, -, hmem, -⟩
    rw [mem_headers_iff.mp hmem]
    rfl
  · intro hsome
    obtain ⟨key, hkey⟩ := isSome_iff_exists.mp hsome
    have hkeyed : ∀ {baseUrl token : String}, client.outgoing baseUrl asked token = .ok (address, wire) →
        validIdempotencyKey key = true → Keyed client asked wire := by
      intro baseUrl token hout hvalid
      obtain ⟨host, hwire⟩ := wire_of_outgoing hout
      exact ⟨host, token, key, hwire, mem_headers_iff.mpr hkey, hvalid⟩
    cases call with
    | request tenantId baseUrl asked' =>
      obtain rfl := some.inj hasked
      obtain ⟨token, hchecked, hout⟩ := bind_eq_ok hsent
      exact hkeyed hout (validKey_of_checkRequest hchecked hmethod hkey)
    | requestManagement tenantId baseUrl asked' =>
      obtain rfl := some.inj hasked
      obtain ⟨token, hchecked, hout⟩ := bind_eq_ok hsent
      exact hkeyed hout (validKey_of_checkManagement hchecked hkey)
    | requestManagementBinary tenantId baseUrl upload =>
      obtain rfl := some.inj hasked
      obtain ⟨token, hchecked, hout⟩ := bind_eq_ok hsent
      exact hkeyed hout (validKey_of_checkUpload hchecked hkey)
    | sweepPool => cases hasked

theorem eq_of_second_write {pre post before after : Course} {second : (o : Op) × o.Result}
    (heq : pre ++ second :: post = before ++ step :: after) (hpre : writes pre = 1)
    (hpost : writes post = 0) (hstep : isWrite step = true) (hbefore : 0 < writes before) :
    before = pre ∧ step = second := by
  rcases append_eq_append_iff.mp heq with ⟨more, hmore, hrest⟩ | ⟨more, hmore, hrest⟩
  · cases more with
    | nil =>
      rw [append_nil] at hmore
      exact ⟨hmore, (cons.inj hrest).1.symm⟩
    | cons first more =>
      obtain ⟨-, rfl⟩ := cons.inj hrest
      simp [hstep] at hpost
  · cases more with
    | nil =>
      rw [append_nil] at hmore
      exact ⟨hmore.symm, (cons.inj hrest).1⟩
    | cons first more =>
      obtain ⟨rfl, -⟩ := cons.inj hrest
      rw [hmore, writes_append, writes_cons, if_pos hstep] at hpre
      omega

section Repeating

variable {call : Call} {asked : Asked}

theorem delivered_before (address : String) (conn next : Nat) (first : Course) :
    delivered (⟨.takePooled address, some conn⟩ :: first ++ [⟨.connect address, .ok next⟩]) =
      delivered first := by
  simp [delivered, broughtBy]

theorem silent_of_retriesSafely (hasked : call.asked = some asked)
    (hsent : client.sent call = .ok (address, wire)) (hrepeats : Repeats behaviour address conn wire)
    (hsafe : RetriesSafely client call (client.course call behaviour)) :
    delivered (firstAttempt behaviour conn wire).1 = [] ∧
      (asked.method = "GET" ∨ asked.idempotencyKey.isSome = true) := by
  have hcourse : client.course call behaviour = (against behaviour 0 (exchange address wire)).1 := by
    rw [course_eq client behaviour hasked, hsent]
  rcases against_exchange behaviour address wire with ⟨-, hnever⟩ |
    ⟨conn', written, reads, next, again, rest, hrepeats', hfirst, -, -, hexchange⟩
  · exact absurd hrepeats (hnever conn)
  · obtain rfl : conn' = conn := by
      have htaken := hrepeats'.taken
      rw [hrepeats.taken] at htaken
      exact (some.inj htaken).symm
    have hrepeated := hsafe asked hasked _ next wire again rest (hcourse.trans hexchange)
      (by simp [isWrite])
    constructor
    · rw [hfirst, ← delivered_before address conn' next]
      exact hrepeated.silent
    · by_cases hmethod : asked.method = "GET"
      · exact .inl hmethod
      · exact .inr ((keyed_iff hasked hsent hmethod).mp (hrepeated.keyed hmethod))

/-- Exactly if an attempt that is repeated has brought no byte and its request is a read or has been
given a key, a request is written twice only with nothing received and, unless it is a read, with a
valid key. -/
theorem retried_safely_iff (client : Client) (call : Call) (behaviour : Behaviour) :
    RetriesSafely client call (client.course call behaviour) ↔
      ∀ asked address wire conn, call.asked = some asked → client.sent call = .ok (address, wire) →
        Repeats behaviour address conn wire →
        delivered (firstAttempt behaviour conn wire).1 = [] ∧
          (asked.method = "GET" ∨ asked.idempotencyKey.isSome = true) := by
  constructor
  · intro hsafe asked address wire conn hasked hsent hrepeats
    exact silent_of_retriesSafely hasked hsent hrepeats hsafe
  · intro hquiet asked hasked before conn wire written after hwritten hbefore
    have hcourse := course_eq client behaviour hasked
    rw [hwritten] at hcourse
    cases hsent : client.sent call with
    | error e =>
      rw [hsent] at hcourse
      simp at hcourse
    | ok sent =>
      obtain ⟨address, wire'⟩ := sent
      simp only [hsent] at hcourse
      rcases against_exchange behaviour address wire' with ⟨honce, -⟩ |
        ⟨first, written', reads, next, again, rest, hrepeats, hfirst, hreads, hrest, hexchange⟩
      · rw [← hcourse] at honce
        simp only [writes_append, writes_cons, isWrite, if_true] at honce
        omega
      · rw [hexchange] at hcourse
        have hone : writes (⟨.takePooled address, some first⟩ :: ⟨.write first wire', written'⟩ ::
            reads ++ [⟨.connect address, .ok next⟩]) = 1 := by
          simp [isWrite, hreads]
        obtain ⟨rfl, hstep⟩ := eq_of_second_write hcourse.symm hone hrest rfl hbefore
        obtain rfl : wire = wire' := by
          cases hstep
          rfl
        obtain ⟨hsilent, hkey⟩ := hquiet asked address wire first hasked hsent hrepeats
        rw [hfirst, ← delivered_before address first next] at hsilent
        refine ⟨⟨address, first, written', _, rfl⟩, hsilent, fun hmethod => ?_⟩
        exact (keyed_iff hasked hsent hmethod).mpr (hkey.resolve_left hmethod)

end Repeating

def localClient : Client where
  crates :=
    { parseUrl := fun _ => some ⟨"http", "", none, some (.ipv4 127 0 0 1), some 8080, "/", none, none⟩
      parseHost := fun _ => none
      contrast := fun _ _ => none
      hashPassword := fun _ => none }
  decoders := ⟨fun _ => none, fun _ => ⟨[], false⟩, fun _ => ⟨[], false⟩⟩
  render := fun _ => ""
  hmacSha256 := fun _ _ => []
  masterKey := some "master"
  managementMasterKey := some "management"

def areaCall (method : String) : Call :=
  .request 0 "http://127.0.0.1:8080" ⟨method, "/v1/control-plane/area", .none, none, none⟩

def resetAfter (first : Option Bytes) : Behaviour
  | _, .takePooled _ => some 0
  | _, .connect _ => .ok 1
  | _, .write _ _ => true
  | n, .read _ => if n = 2 then first else none
  | _, .returnPooled _ _ | _, .sweepPool => ()

def areaWire (method : String) : Bytes :=
  localClient.wire ⟨method, "/v1/control-plane/area", .none, none, none⟩ "127.0.0.1:8080" ""

/-- A read is repeated after a part of its response has come, and an `AREA` mutation without a key is
repeated when the reused connection is reset. -/
theorem repeated_unsafely :
    ¬ RetriesSafely localClient (areaCall "GET")
        (localClient.course (areaCall "GET") (resetAfter (some [72]))) ∧
      ¬ RetriesSafely localClient (areaCall "POST")
        (localClient.course (areaCall "POST") (resetAfter none)) := by
  constructor
  · intro hsafe
    have hsent : localClient.sent (areaCall "GET") = .ok ("127.0.0.1:8080", areaWire "GET") := by
      rfl
    obtain ⟨hsilent, -⟩ := silent_of_retriesSafely rfl hsent
      ⟨rfl, ⟨.unreachable, by decide +kernel⟩, 1, by rfl⟩ hsafe
    revert hsilent
    decide +kernel
  · intro hsafe
    have hsent : localClient.sent (areaCall "POST") = .ok ("127.0.0.1:8080", areaWire "POST") := by
      rfl
    obtain ⟨-, hkey⟩ := silent_of_retriesSafely rfl hsent
      ⟨rfl, ⟨.unreachable, by decide +kernel⟩, 1, by rfl⟩ hsafe
    revert hkey
    decide

end ControlPlane.Upstream
