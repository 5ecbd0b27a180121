import ControlPlane.Proof.Texts
import ControlPlane.Upstream.Framing

/-!
# Chunked bodies

What is sent in chunks is read back as it was, however the sizes are spelled; on any other input the
decoder comes to an end within its slices.
-/

namespace ControlPlane.Upstream

open List Option Text

def hexChar (upper : Bool) (value : Fin 16) : Char :=
  if upper then (Nat.digitChar value).toUpper else Nat.digitChar value

/-- The line in front of a chunk of `n` bytes, or of none: its size in any spelling, perhaps with leading
zeros, and perhaps an extension. -/
structure SizeLine (n : Nat) where
  digits : List (Bool × Fin 16)
  extension : String
  spelled : digits ≠ []
  value : Nat.ofDigits 16 (digits.map (·.2.val)).reverse = n
  marked : extension = "" ∨ extension.toList.head? = some ';'
  unbroken : ¬ [13, 10] <:+: utf8 extension

structure Chunk where
  data : Bytes
  nonempty : data ≠ []
  line : SizeLine data.length

def SizeLine.size {n : Nat} (line : SizeLine n) : List Char := line.digits.map fun d => hexChar d.1 d.2

def SizeLine.encoded {n : Nat} (line : SizeLine n) : Bytes :=
  utf8 (String.ofList (line.size ++ line.extension.toList)) ++ [13, 10]

def Chunk.encoded (chunk : Chunk) : Bytes := chunk.line.encoded ++ chunk.data ++ [13, 10]

variable {input output rest : Bytes} {n room : Nat} {fuel : Nat}

theorem utf8_append (first second : List Char) :
    utf8 (String.ofList (first ++ second)) = utf8 (String.ofList first) ++ utf8 (String.ofList second) := by
  simp [utf8]

theorem findSubsequence_line {line : Bytes} (hline : ¬ [13, 10] <:+: line) :
    findSubsequence [13, 10] (line ++ 13 :: 10 :: rest) = some line.length := by
  induction line with
  | nil => rfl
  | cons b line ih =>
    rw [infix_cons_iff, not_or] at hline
    have hstart : ([13, 10] : Bytes).isPrefixOf (b :: (line ++ 13 :: 10 :: rest)) = false := by
      rw [Bool.eq_false_iff, Ne, isPrefixOf_iff_prefix]
      cases line with
      | nil => simp
      | cons c line => simpa using hline.1
    rw [cons_append, findSubsequence, hstart, ih hline.2]
    rfl

theorem unbroken_append {first second : Bytes} (hfirst : 13 ∉ first)
    (hsecond : ¬ [13, 10] <:+: second) : ¬ [13, 10] <:+: first ++ second := by
  induction first with
  | nil => exact hsecond
  | cons b first ih =>
    rw [mem_cons, not_or] at hfirst
    rw [cons_append, infix_cons_iff, not_or]
    refine ⟨fun hstart => hfirst.1 ?_, ih hfirst.2⟩
    exact (cons_prefix_cons.mp hstart).1

theorem hexChar_spec : ∀ upper value, digitValue 16 (hexChar upper value) = some value.val ∧
    hexChar upper value ≠ ';' ∧ hexChar upper value ≠ '+' ∧
    isWhitespace (hexChar upper value) = false ∧
    13 ∉ String.utf8EncodeChar (hexChar upper value) := by
  decide

theorem SizeLine.mem_size (line : SizeLine n) {c : Char} (hc : c ∈ line.size) :
    ∃ upper value, c = hexChar upper value := by
  obtain ⟨d, _, rfl⟩ := mem_map.mp hc
  exact ⟨d.1, d.2, rfl⟩

theorem SizeLine.digitsValue_size (line : SizeLine n) : digitsValue 16 line.size = some n := by
  have hfold : ∀ (digits : List (Bool × Fin 16)) (acc : Nat),
      (digits.map fun d => hexChar d.1 d.2).foldl
          (fun n c => n.bind fun n => (digitValue 16 c).map (16 * n + ·)) (some acc) =
        some (digits.foldl (fun n d => d.2.val + 16 * n) acc) := by
    intro digits
    induction digits with
    | nil => intro acc; rfl
    | cons d digits ih =>
      intro acc
      rw [map_cons, foldl_cons, foldl_cons, (hexChar_spec d.1 d.2).1]
      rw [Nat.add_comm]
      exact ih _
  have hvalue := line.value
  rw [Nat.ofDigits_eq_foldr, foldr_reverse, foldl_map] at hvalue
  have hsize : digitsValue 16 line.size = some (line.digits.foldl (fun n d => d.2.val + 16 * n) 0) := by
    rw [← hfold]
    cases hdigits : line.digits with
    | nil => exact absurd hdigits line.spelled
    | cons d digits => simp [SizeLine.size, hdigits, digitsValue]
  rw [hsize]
  exact congrArg some hvalue

theorem SizeLine.readSize (line : SizeLine n) (hn : n < usizeBound) :
    parseUnsigned 16 usizeBound (trim (String.ofList
      ((line.size ++ line.extension.toList).takeWhile (· ≠ ';')))) = some n := by
  have hcut : (line.size ++ line.extension.toList).takeWhile (· ≠ ';') = line.size := by
    have hdigits : ∀ c ∈ line.size, decide (c ≠ ';') = true := by
      intro c hc
      obtain ⟨upper, value, rfl⟩ := line.mem_size hc
      exact decide_eq_true (hexChar_spec upper value).2.1
    have hextension : line.extension.toList.takeWhile (· ≠ ';') = [] := by
      rcases line.marked with hempty | hmarked
      · rw [hempty]
        rfl
      · cases htext : line.extension.toList with
        | nil => rfl
        | cons c cs =>
          rw [htext] at hmarked
          cases hmarked
          rfl
    rw [takeWhile_append_of_pos hdigits, hextension, append_nil]
  have htrim : trim (String.ofList line.size) = String.ofList line.size := by
    refine trim_eq_self fun c hc => ?_
    rw [String.toList_ofList] at hc
    obtain ⟨upper, value, rfl⟩ := line.mem_size hc
    exact (hexChar_spec upper value).2.2.2.1
  rw [hcut, htrim, parseUnsigned, String.toList_ofList]
  cases hsize : line.size with
  | nil => exact absurd (map_eq_nil_iff.mp hsize) line.spelled
  | cons c cs =>
    obtain ⟨upper, value, rfl⟩ := line.mem_size (hsize ▸ mem_cons_self)
    have hplus := (hexChar_spec upper value).2.2.1
    have hvalue := line.digitsValue_size
    rw [hsize] at hvalue
    split
    · rename_i hsame
      exact absurd (cons.inj hsame).1 hplus
    · rw [hvalue, filter_some, if_pos (decide_eq_true hn)]

theorem nextChunk_line (line : SizeLine n) (hn : n < usizeBound) :
    nextChunk (line.encoded ++ rest) room =
      if n = 0 then .ok none
      else if room < n ∨ rest.length < n + 2 ∨ (rest.drop n).take 2 ≠ [13, 10] then
        mismatch "invalid upstream chunk framing"
      else .ok (some (rest.take n, rest.drop (n + 2))) := by
  have hunbroken : ¬ [13, 10] <:+: utf8 (String.ofList (line.size ++ line.extension.toList)) := by
    rw [utf8_append, String.ofList_toList]
    refine unbroken_append (fun hmem => ?_) line.unbroken
    obtain ⟨c, hc, hbyte⟩ := mem_flatMap.mp hmem
    rw [String.toList_ofList] at hc
    obtain ⟨upper, value, rfl⟩ := line.mem_size hc
    exact (hexChar_spec upper value).2.2.2.2 hbyte
  have hinput : line.encoded ++ rest =
      utf8 (String.ofList (line.size ++ line.extension.toList)) ++ 13 :: 10 :: rest := by
    simp [SizeLine.encoded]
  have hread := line.readSize hn
  generalize htext : String.ofList (line.size ++ line.extension.toList) = text at hunbroken hinput
  have htake : fromUtf8 (utf8 text) = some text := fromUtf8_encoded
  have hchars : line.size ++ line.extension.toList = text.toList := by
    rw [← htext, String.toList_ofList]
  rw [hchars] at hread
  rw [hinput, nextChunk, findSubsequence_line hunbroken]
  simp only [take_left, htake, hread]
  have hdrop : (utf8 text ++ 13 :: 10 :: rest).drop ((utf8 text).length + 2) = rest := by
    simp
  rw [hdrop]

theorem decodeChunks_encoded (chunks : List Chunk) (last : SizeLine 0)
    (hfuel : chunks.length < fuel)
    (hroom : output.length + (chunks.flatMap (·.data)).length ≤ maxResponseBytes) :
    decodeChunks fuel (chunks.flatMap (·.encoded) ++ (last.encoded ++ rest)) output =
      .ok (output ++ chunks.flatMap (·.data)) := by
  induction chunks generalizing fuel output with
  | nil =>
    obtain ⟨fuel, rfl⟩ := Nat.exists_eq_succ_of_ne_zero (Nat.ne_zero_of_lt hfuel)
    rw [decodeChunks, flatMap_nil, nil_append, nextChunk_line last (by decide)]
    simp
    rfl
  | cons chunk chunks ih =>
    obtain ⟨fuel, rfl⟩ := Nat.exists_eq_succ_of_ne_zero (Nat.ne_zero_of_lt hfuel)
    rw [flatMap_cons, length_append] at hroom
    have hpositive := length_pos_iff.mpr chunk.nonempty
    have hbound : maxResponseBytes < usizeBound := by decide
    have hinput : (chunk :: chunks).flatMap (·.encoded) ++ (last.encoded ++ rest) =
        chunk.line.encoded ++ (chunk.data ++ 13 :: 10 ::
          (chunks.flatMap (·.encoded) ++ (last.encoded ++ rest))) := by
      simp [Chunk.encoded]
    have hnext : nextChunk ((chunk :: chunks).flatMap (·.encoded) ++ (last.encoded ++ rest))
        (maxResponseBytes - output.length) =
        .ok (some (chunk.data, chunks.flatMap (·.encoded) ++ (last.encoded ++ rest))) := by
      rw [hinput, nextChunk_line chunk.line (by omega), if_neg (by omega), if_neg ?_]
      · simp [drop_append]
      · rw [drop_left]
        simp
        omega
    rw [decodeChunks, hnext]
    refine (ih (by simpa using hfuel) ?_).trans ?_
    · rw [length_append]
      omega
    · rw [append_assoc, flatMap_cons]

/-- `&input[first..last]`, nothing where it would panic. -/
def slice (input : Bytes) (first last : Nat) : Option Bytes :=
  if first ≤ last ∧ last ≤ input.length then some ((input.take last).drop first) else none

/-- An addition of `usize`, nothing where it would overflow. -/
def plus (a b : Nat) : Option Nat := if a + b < usizeBound then some (a + b) else none

/-- One round of the loop in `decode_chunked`, with its slices and additions as they are written. -/
def chunkRound (input output : Bytes) : Option (Except ApiError (Option (Bytes × Bytes))) :=
  match findSubsequence [13, 10] input with
  | none => some (mismatch "malformed chunked upstream response")
  | some lineEnd => do
    match Text.fromUtf8 (← slice input 0 lineEnd) with
    | none => some (mismatch "malformed upstream chunk size")
    | some sizeLine =>
      let sizeHex := Text.trim (String.ofList (sizeLine.toList.takeWhile (· ≠ ';')))
      match parseUnsigned 16 usizeBound sizeHex with
      | none => some (mismatch "invalid upstream chunk size")
      | some size =>
        let input ← slice input (← plus lineEnd 2) input.length
        if size = 0 then some (.ok none)
        else if maxResponseBytes - output.length < size ∨
            input.length < min (size + 2) (usizeBound - 1) then
          some (mismatch "invalid upstream chunk framing")
        else if (← slice input size (← plus size 2)) ≠ [13, 10] then
          some (mismatch "invalid upstream chunk framing")
        else
          some (.ok (some (← slice input 0 size, ← slice input (← plus size 2) input.length)))

/-- The loop for a number of rounds; nothing where it panics or is not through by then. -/
def decodeRounds : Nat → Bytes → Bytes → Option (Except ApiError Bytes)
  | 0, _, _ => none
  | rounds + 1, input, output => do
    match ← chunkRound input output with
    | .error e => some (.error e)
    | .ok none => some (.ok output)
    | .ok (some (data, rest)) => decodeRounds rounds rest (output ++ data)

theorem findSubsequence_bound {needle : Bytes} {i : Nat}
    (hfound : findSubsequence needle input = some i) : i + needle.length ≤ input.length := by
  induction input generalizing i with
  | nil => cases hfound
  | cons b input ih =>
    unfold findSubsequence at hfound
    split_ifs at hfound with hstart
    · cases hfound
      simpa using ( isPrefixOf_iff_prefix.mp hstart).length_le
    · obtain ⟨j, hj, rfl⟩ := map_eq_some_iff.mp hfound
      have hbound := ih hj
      rw [length_cons]
      omega

theorem slice_eq {first last : Nat} (hfirst : first ≤ last) (hlast : last ≤ input.length) :
    slice input first last = some ((input.take last).drop first) := if_pos ⟨hfirst, hlast⟩

/-- No slice is out of range and no addition overflows. What a round takes off the input is more than the
data, which fits under the limit. -/
theorem chunkRound_spec (output : Bytes) (hinput : input.length < 2 ^ 63) :
    chunkRound input output = some (nextChunk input (maxResponseBytes - output.length)) ∧
      ∀ data rest, nextChunk input (maxResponseBytes - output.length) = .ok (some (data, rest)) →
        data.length ≤ maxResponseBytes - output.length ∧ rest.length < input.length := by
  have hplus : ∀ a, a + 2 ≤ input.length → plus a 2 = some (a + 2) := by
    intro a ha
    exact if_pos (by unfold usizeBound; omega)
  unfold chunkRound nextChunk
  cases hfound : findSubsequence [13, 10] input with
  | none => exact ⟨rfl, by simp [mismatch]⟩
  | some lineEnd =>
    have hbound : lineEnd + 2 ≤ input.length := findSubsequence_bound hfound
    have hline := slice_eq (Nat.zero_le lineEnd) (Nat.le_of_add_right_le hbound)
    have hrest := slice_eq hbound (Nat.le_refl _)
    rw [take_length] at hrest
    simp only [hline, hrest, hplus lineEnd hbound, bind_eq_bind, bind_some, drop_zero]
    have hlength : (input.drop (lineEnd + 2)).length + 2 ≤ input.length := by
      rw [length_drop]
      omega
    generalize input.drop (lineEnd + 2) = rest at hlength
    cases fromUtf8 (input.take lineEnd) with
    | none => exact ⟨rfl, by simp [mismatch]⟩
    | some sizeLine =>
      dsimp only
      cases parseUnsigned 16 usizeBound
        (trim (String.ofList (sizeLine.toList.takeWhile (· ≠ ';')))) with
      | none => exact ⟨rfl, by simp [mismatch]⟩
      | some size =>
        dsimp only
        by_cases hzero : size = 0
        · rw [if_pos hzero, if_pos hzero]
          exact ⟨rfl, by simp⟩
        rw [if_neg hzero, if_neg hzero]
        have hmin : rest.length < min (size + 2) (usizeBound - 1) ↔ rest.length < size + 2 := by
          unfold usizeBound
          omega
        by_cases hshort : maxResponseBytes - output.length < size ∨ rest.length < size + 2
        · rw [if_pos (hshort.imp_right hmin.mpr), if_pos (hshort.imp_right .inl)]
          exact ⟨rfl, by simp [mismatch]⟩
        have hfits : size + 2 ≤ rest.length := by omega
        have hmark := slice_eq (Nat.le_add_right size 2) hfits
        have hdata := slice_eq (Nat.zero_le size) (Nat.le_of_add_right_le hfits)
        have htail := slice_eq hfits (Nat.le_refl _)
        rw [take_length] at htail
        rw [drop_take, Nat.add_sub_cancel_left] at hmark
        rw [if_neg fun h => hshort (h.imp_right hmin.mp), hplus size (by omega)]
        simp only [hmark, hdata, htail, bind_some, drop_zero]
        by_cases hend : (rest.drop size).take 2 = [13, 10]
        · rw [if_neg (not_not.mpr hend), if_neg (by simp [hend]; omega)]
          refine ⟨rfl, ?_⟩
          rintro _ _ ⟨⟩
          rw [length_take, length_drop]
          omega
        · rw [if_pos hend, if_pos (.inr (.inr hend))]
          exact ⟨rfl, by simp [mismatch]⟩

theorem decodeRounds_spec {rounds : Nat} (hrounds : input.length < rounds)
    (hfuel : input.length < fuel) (hinput : input.length < 2 ^ 63)
    (houtput : output.length ≤ maxResponseBytes) :
    decodeRounds rounds input output = some (decodeChunks fuel input output) ∧
      ∀ result, decodeChunks fuel input output = .ok result → result.length ≤ maxResponseBytes := by
  induction rounds generalizing fuel input output with
  | zero => omega
  | succ rounds ih =>
    obtain ⟨fuel, rfl⟩ := Nat.exists_eq_succ_of_ne_zero (Nat.ne_zero_of_lt hfuel)
    obtain ⟨hround, hbounds⟩ := chunkRound_spec output hinput
    rw [decodeRounds, decodeChunks, hround]
    cases hnext : nextChunk input (maxResponseBytes - output.length) with
    | error e => exact ⟨rfl, nofun⟩
    | ok next =>
      cases next with
      | none =>
        refine ⟨rfl, ?_⟩
        rintro _ ⟨⟩
        exact houtput
      | some next =>
        obtain ⟨data, rest⟩ := next
        obtain ⟨hdata, hrest⟩ := hbounds data rest hnext
        refine ih (by omega) (by omega) (by omega) ?_
        rw [length_append]
        omega

/-- Decoding inverts encoding; on every input that fits the address space the loop ends, in fewer
rounds than bytes, without a panic and within the limit. -/
theorem decodeChunked_inverts_encoding :
    (∀ (chunks : List Chunk) (last : SizeLine 0) (rest : Bytes),
      (chunks.flatMap (·.data)).length ≤ maxResponseBytes →
      decodeChunked (chunks.flatMap (·.encoded) ++ (last.encoded ++ rest)) =
        .ok (chunks.flatMap (·.data))) ∧
    ∀ input : Bytes, input.length < 2 ^ 63 →
      (∀ rounds, input.length < rounds → decodeRounds rounds input [] = some (decodeChunked input)) ∧
        ∀ result, decodeChunked input = .ok result → result.length ≤ maxResponseBytes := by
  constructor
  · intro chunks last rest hsize
    have hchunks : ∀ chunks : List Chunk, chunks.length ≤ (chunks.flatMap (·.encoded)).length := by
      intro chunks
      induction chunks with
      | nil => exact Nat.le_refl 0
      | cons chunk chunks ih =>
        have hchunk : 0 < chunk.encoded.length := by simp [Chunk.encoded]
        rw [flatMap_cons, length_append, length_cons]
        omega
    have hlength := hchunks chunks
    refine decodeChunks_encoded chunks last ?_ (by simpa using hsize)
    rw [length_append]
    omega
  · intro input hinput
    have hempty : ([] : Bytes).length ≤ maxResponseBytes := Nat.zero_le _
    have hspec (rounds : Nat) (hrounds : input.length < rounds) :=
      decodeRounds_spec hrounds (Nat.lt_succ_self input.length) hinput hempty
    exact ⟨fun rounds hrounds => (hspec rounds hrounds).1, (hspec _ (Nat.lt_succ_self _)).2⟩

def spelledChunks : List Chunk :=
  [⟨utf8 "0123456789", by decide, [(false, 0), (true, 10)], "", by decide, by decide, by decide, by decide⟩,
    ⟨utf8 "abc", by decide, [(false, 3)], ";x=é", by decide, by decide, by decide, by decide⟩]

def zeroLine : SizeLine 0 := ⟨[(false, 0)], "", by decide, by decide, by decide, by decide⟩

theorem decodeChunked_inverts_encoding_spelled :
    decodeChunked (utf8 "0A\r\n0123456789\r\n3;x=é\r\nabc\r\n0\r\n\r\n") = .ok (utf8 "0123456789abc") ∧
      decodeRounds 9 (utf8 "FFFFFFFF") [] = some (decodeChunked (utf8 "FFFFFFFF")) := by
  obtain ⟨hdecoded, hends⟩ := decodeChunked_inverts_encoding
  exact ⟨hdecoded spelledChunks zeroLine [13, 10] (by decide), (hends _ (by decide)).1 9 (by decide)⟩

end ControlPlane.Upstream
