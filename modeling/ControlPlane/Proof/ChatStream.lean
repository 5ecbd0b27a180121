import ControlPlane.ChatStream

/-!
# Broken chat streams

Wherever the bytes are cut, the reader takes in the same blocks and makes the same calls. Behind a
failed upstream connection the last block is never an event for the reader.
-/

namespace ControlPlane.ChatStream

open TextStream List

variable {parser : JsonParser} {text last front : List Char}

def decoded (bytes : List UInt8) : List Char := (Decoder.new.decode bytes).2

def completed (text : List Char) : List (List Char) := (blocks text).dropLast

theorem blocks_eq (text : List Char) :
    ∃ last, blocks text = completed text ++ [last] ∧ (blocks text).getLast?.getD [] = last := by
  have hne := blocks_ne_nil text
  refine ⟨(blocks text).getLast hne, (dropLast_append_getLast hne).symm, ?_⟩
  rw [getLast?_eq_some_getLast hne]
  rfl

theorem completed_append {more : List Char} (hblocks : blocks text = completed text ++ [last]) :
    completed (text ++ more) = completed text ++ completed (last ++ more) := by
  unfold completed at hblocks ⊢
  rw [blocks_append more hblocks, dropLast_append_of_ne_nil (blocks_ne_nil _)]

variable {m : Type → Type} [Monad m] [LawfulMonad m] {handle : Reply → List Char → m Reply} in
theorem foldlM_feedWith (chunks : List (List UInt8)) (reader : Reader)
    (hbuffer : Unsplit reader.buffer) :
    Reader.reply <$> chunks.foldlM (Reader.feedWith handle) reader =
      (completed (reader.buffer ++ (reader.decoder.decode chunks.flatten).2)).foldlM handle
        reader.reply := by
  induction chunks generalizing reader with
  | nil =>
    have hnothing : completed (reader.buffer ++ (reader.decoder.decode []).2) = [] := by
      have htext : (reader.decoder.decode []).2 = [] := by
        cases hbegun : reader.decoder.begun <;> simp [Decoder.decode, decodeBytes, dropMark, hbegun]
      rw [htext, append_nil, completed, show blocks reader.buffer = _ from hbuffer]
      rfl
    rw [flatten_nil, hnothing, foldlM_nil, foldlM_nil, map_pure]
  | cons value chunks ih =>
    obtain ⟨last, hblocks, hlast⟩ := blocks_eq (reader.buffer ++ (reader.decoder.decode value).2)
    rw [flatten_cons, Decoder.decode_append, ← append_assoc, completed_append hblocks,
      foldlM_append, foldlM_cons, Reader.feedWith, hlast]
    simp only [bind_assoc, pure_bind, map_bind]
    exact bind_congr fun reply =>
      ih ⟨(reader.decoder.decode value).1, last, reply⟩ (unsplit_last hblocks)

theorem readChatStream_eq (chunks : List (List UInt8)) :
    readChatStream parser chunks =
      (completed (decoded chunks.flatten)).foldlM (handleBlock parser) {} := by
  unfold readChatStream
  rw [bind_pure_comp]
  exact foldlM_feedWith chunks {} unsplit_nil

def errorText : List Char := "event: error\ndata: stream interrupted".toList

theorem errorEvent_eq : asciiText errorEvent = errorText ++ ['\n', '\n'] := by decide

theorem completed_interrupted {mark : List Char} (hblocks : blocks text = completed text ++ [last])
    (hmark : mark = [] ∨ mark = [replacement]) :
    completed (text ++ (mark ++ (errorText ++ ['\n', '\n']))) =
      completed text ++ [last ++ (mark ++ errorText)] := by
  have htail : Unsplit (mark ++ errorText) ∧ (mark ++ errorText).head? ≠ some '\n' ∧
      (mark ++ errorText).getLast? = some 'd' := by
    rcases hmark with rfl | rfl <;> exact ⟨by decide, by decide, by decide⟩
  have hblock : Unsplit (last ++ (mark ++ errorText)) :=
    (unsplit_last hblocks).append htail.1 htail.2.1
  have hend : (last ++ (mark ++ errorText)).getLast? ≠ some '\n' := by
    rw [getLast?_append, htail.2.2]
    exact nofun
  have hclosed : completed (last ++ (mark ++ errorText) ++ ['\n', '\n']) =
      [last ++ (mark ++ errorText)] := by
    rw [completed, blocks_closed hblock hend]
    rfl
  rw [completed_append hblocks, ← append_assoc mark, ← append_assoc last, hclosed]

theorem trim_concat {c : Char} (hc : isTrimmed c = false) :
    trim (front ++ [c]) = front.dropWhile isTrimmed ++ [c] := by
  have hfront : (front ++ [c]).dropWhile isTrimmed = front.dropWhile isTrimmed ++ [c] := by
    rw [dropWhile_append]
    cases front.dropWhile isTrimmed <;> simp [hc]
  rw [trim, hfront, reverse_append, reverse_singleton, singleton_append,
    dropWhile_cons_of_neg (by simp [hc])]
  simp

theorem eventOfBlock_concat : eventOfBlock parser (front ++ ['d']) = none := by
  unfold eventOfBlock
  dsimp only
  rw [trim_concat (by decide)]
  generalize front.dropWhile isTrimmed = line
  split_ifs with hmark
  · have hlength : 6 ≤ line.length := by
      obtain ⟨rest, hrest⟩ := isPrefixOf_iff_prefix.mp hmark
      have hcount := congrArg length hrest
      rw [length_append, length_append, length_singleton,
        show dataMark.length = 6 from rfl] at hcount
      cases rest with
      | nil =>
        have hlast := congrArg getLast? hrest
        rw [append_nil, getLast?_concat] at hlast
        exact absurd hlast (by decide)
      | cons c rest =>
        rw [length_cons] at hcount
        omega
    rw [drop_append_of_le_length hlength]
    split
    · rename_i members hparsed
      have hclosed := parser.closed _ members hparsed
      rw [reverse_append, reverse_singleton, singleton_append,
        dropWhile_cons_of_neg (by decide), head?_cons] at hclosed
      exact absurd hclosed (by decide)
    · rfl
  · rfl

theorem handleBlock_eq_error {reply : Reply} {block : List Char} {message : String} :
    handleBlock parser reply block = .error message ↔
      eventOfBlock parser block = some (.error message) := by
  unfold handleBlock
  split <;> rename_i hevent <;> simp [hevent]

theorem foldlM_handleBlock_error_iff (done : List (List Char)) (reply : Reply) :
    (∃ message, done.foldlM (handleBlock parser) reply = .error message) ↔
      ∃ block ∈ done, ∃ message, eventOfBlock parser block = some (.error message) := by
  induction done generalizing reply with
  | nil => simp [pure, Except.pure]
  | cons block done ih =>
    rw [foldlM_cons]
    cases hhandled : handleBlock parser reply block with
    | error message =>
      exact iff_of_true ⟨message, rfl⟩
        ⟨block, mem_cons_self, message, handleBlock_eq_error.mp hhandled⟩
    | ok next =>
      have hquiet : ¬ ∃ message, eventOfBlock parser block = some (.error message) := by
        rintro ⟨message, hevent⟩
        rw [handleBlock_eq_error.mpr hevent] at hhandled
        cases hhandled
      rw [show (Except.ok next >>= fun reply => done.foldlM (handleBlock parser) reply) =
        done.foldlM (handleBlock parser) next from rfl, ih]
      simp [hquiet]

theorem flatten_chatStream (received : List (List UInt8)) (later : List (Except Unit (List UInt8))) :
    (chatStream (received.map .ok ++ .error () :: later)).flatten = received.flatten ++ errorEvent := by
  induction received with
  | nil => simp [chatStream]
  | cons chunk received ih =>
    change (chunk :: chatStream (received.map .ok ++ .error () :: later)).flatten = _
    rw [flatten_cons, ih, flatten_cons, append_assoc]

theorem decoded_interrupted (bytes : List UInt8) :
    ∃ mark, (mark = [] ∨ mark = [replacement]) ∧
      decoded (bytes ++ errorEvent) = decoded bytes ++ (mark ++ (errorText ++ ['\n', '\n'])) := by
  have hascii : ∀ byte ∈ errorEvent, byte.toNat < 128 := by decide +kernel
  have hcons : errorEvent = errorEvent.head (by decide +kernel) :: errorEvent.tail :=
    (cons_head_tail _).symm
  rw [decoded, Decoder.decode_append, ← errorEvent_eq]
  rw [hcons] at hascii ⊢
  rw [Decoder.decode_ascii _ hascii]
  refine ⟨if (Decoder.new.decode bytes).1.utf8.needed = 0 then [] else [replacement], ?_, rfl⟩
  split_ifs
  · exact .inl rfl
  · exact .inr rfl

theorem eventOfBlock_interrupted (last mark : List Char) :
    eventOfBlock parser (last ++ (mark ++ errorText)) = none := by
  have hconcat : errorText = errorText.dropLast ++ ['d'] := by decide
  rw [hconcat, ← append_assoc, ← append_assoc]
  exact eventOfBlock_concat

/-- A stream whose upstream connection fails ends in a stream error if and only if the upstream had
itself completed an error event, however the bytes are cut. -/
theorem broken_stream_throws_iff (parser : JsonParser) (received : List (List UInt8))
    (later : List (Except Unit (List UInt8))) {chunks : List (List UInt8)}
    (hchunks : chunks.flatten = (chatStream (received.map .ok ++ .error () :: later)).flatten) :
    (∃ message, readChatStream parser chunks = .error message) ↔
      ∃ block ∈ completed (decoded received.flatten), ∃ message,
        eventOfBlock parser block = some (.error message) := by
  obtain ⟨mark, hmark, hdecoded⟩ := decoded_interrupted received.flatten
  obtain ⟨last, hblocks, _⟩ := blocks_eq (decoded received.flatten)
  rw [readChatStream_eq, hchunks, flatten_chatStream, hdecoded, completed_interrupted hblocks hmark,
    foldlM_handleBlock_error_iff]
  constructor
  · rintro ⟨block, hblock, message, hevent⟩
    rcases mem_append.mp hblock with hdone | hlast
    · exact ⟨block, hdone, message, hevent⟩
    · rw [mem_singleton.mp hlast, eventOfBlock_interrupted] at hevent
      cases hevent
  · rintro ⟨block, hblock, hraises⟩
    exact ⟨block, mem_append_left _ hblock, hraises⟩

def oneErrorParser : JsonParser where
  parse text :=
    if text = "\x7b\"type\":\"error\"\x7d".toList then some (.obj [("type", .str "error")]) else none
  closed text members hparsed := by
    split_ifs at hparsed with htext
    rw [htext]
    decide

theorem broken_stream_throws_iff_reported :
    (∃ message, readChatStream oneErrorParser [asciiBytes "data: \x7b\"type\":\"err",
        asciiBytes "or\"\x7d\n\n" ++ errorEvent] = .error message) ↔
      ∃ block ∈ completed (decoded (asciiBytes "data: \x7b\"type\":\"error\"\x7d\n\n")), ∃ message,
        eventOfBlock oneErrorParser block = some (.error message) :=
  broken_stream_throws_iff oneErrorParser [asciiBytes "data: \x7b\"type\":\"error\"\x7d\n\n"] []
    (by decide)

/-- The upstream fails inside its first event, and the reader returns an empty reply, whatever it takes
for JSON. -/
theorem broken_stream_returns :
    completed (decoded (chatStream [.ok (asciiBytes "data: \x7b\"type\":"), .error ()]).flatten) =
        ["data: \x7b\"type\":".toList ++ ([] ++ errorText)] ∧
      ∀ parser, readChatStream parser
        (chatStream [.ok (asciiBytes "data: \x7b\"type\":"), .error ()]) = .ok {} := by
  have hblocks : completed (decoded (chatStream [.ok (asciiBytes "data: \x7b\"type\":"),
      .error ()]).flatten) = ["data: \x7b\"type\":".toList ++ ([] ++ errorText)] := by decide
  refine ⟨hblocks, fun parser => ?_⟩
  have hquiet : handleBlock parser {} ("data: \x7b\"type\":".toList ++ ([] ++ errorText)) = .ok {} := by
    rw [handleBlock, eventOfBlock_interrupted]
  rw [readChatStream_eq, hblocks, foldlM_cons, hquiet]
  rfl

end ControlPlane.ChatStream
