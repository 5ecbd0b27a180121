import Mathlib

/-!
# Text that arrives in pieces

The streaming UTF-8 decoder of the encoding standard, and the division of a text into blocks that
two newlines separate. Both depend on the bytes only, not on where they were cut.
-/

namespace TextStream

open List

/-- A character that is being decoded: how many bytes it lacks, the bounds of the next one, and the bits
gathered so far. Nothing is lacking between two characters. -/
structure Utf8 where
  needed : Nat
  lower : Nat
  upper : Nat
  codePoint : Nat
  /-- What goes on with a character is never ASCII. -/
  lower_ge : 0x80 ≤ lower := by decide
deriving DecidableEq, Repr

def Utf8.start : Utf8 where
  needed := 0
  lower := 0x80
  upper := 0xBF
  codePoint := 0

def replacement : Char := Char.ofNat 0xFFFD

def byteOrderMark : Char := Char.ofNat 0xFEFF

def firstByte (byte : Nat) : Utf8 × List Char :=
  if byte ≤ 0x7F then (.start, [Char.ofNat byte])
  else if 0xC2 ≤ byte ∧ byte ≤ 0xDF then
    ({ needed := 1, lower := 0x80, upper := 0xBF, codePoint := byte - 0xC0 }, [])
  else if 0xE0 ≤ byte ∧ byte ≤ 0xEF then
    ({ needed := 2
       lower := if byte = 0xE0 then 0xA0 else 0x80
       upper := if byte = 0xED then 0x9F else 0xBF
       codePoint := byte - 0xE0
       lower_ge := by split <;> decide }, [])
  else if 0xF0 ≤ byte ∧ byte ≤ 0xF4 then
    ({ needed := 3
       lower := if byte = 0xF0 then 0x90 else 0x80
       upper := if byte = 0xF4 then 0x8F else 0xBF
       codePoint := byte - 0xF0
       lower_ge := by split <;> decide }, [])
  else (.start, [replacement])

def decodeByte (state : Utf8) (byte : UInt8) : Utf8 × List Char :=
  if state.needed = 0 then firstByte byte.toNat
  else if byte.toNat < state.lower ∨ state.upper < byte.toNat then
    -- the character is given up and the byte looked at once more
    let again := firstByte byte.toNat
    (again.1, replacement :: again.2)
  else
    let codePoint := state.codePoint * 64 + (byte.toNat - 0x80)
    if state.needed = 1 then (.start, [Char.ofNat codePoint])
    else ({ needed := state.needed - 1, lower := 0x80, upper := 0xBF, codePoint }, [])

def decodeBytes : Utf8 → List UInt8 → Utf8 × List Char
  | state, [] => (state, [])
  | state, byte :: bytes =>
    let first := decodeByte state byte
    let rest := decodeBytes first.1 bytes
    (rest.1, first.2 ++ rest.2)

theorem decodeBytes_append (state : Utf8) (xs ys : List UInt8) :
    decodeBytes state (xs ++ ys) =
      ((decodeBytes (decodeBytes state xs).1 ys).1,
        (decodeBytes state xs).2 ++ (decodeBytes (decodeBytes state xs).1 ys).2) := by
  induction xs generalizing state with
  | nil => rfl
  | cons byte xs ih =>
    simp only [cons_append, decodeBytes]
    rw [ih, append_assoc]

/-- A decoder drops a byte order mark at the beginning of its text. -/
structure Decoder where
  begun : Bool
  utf8 : Utf8
deriving DecidableEq, Repr

def Decoder.new : Decoder := ⟨false, .start⟩

def dropMark (begun : Bool) (text : List Char) : Bool × List Char :=
  match begun, text with
  | true, text => (true, text)
  | false, [] => (false, [])
  | false, c :: rest => (true, if c = byteOrderMark then rest else c :: rest)

theorem dropMark_append (begun : Bool) (s t : List Char) :
    dropMark begun (s ++ t) =
      ((dropMark (dropMark begun s).1 t).1, (dropMark begun s).2 ++ (dropMark (dropMark begun s).1 t).2) := by
  cases begun with
  | true => rfl
  | false =>
    cases s with
    | nil => rfl
    | cons c rest =>
      simp only [cons_append, dropMark]
      split_ifs <;> rfl

namespace Decoder

def decode (decoder : Decoder) (bytes : List UInt8) : Decoder × List Char :=
  let decoded := decodeBytes decoder.utf8 bytes
  let marked := dropMark decoder.begun decoded.2
  (⟨marked.1, decoded.1⟩, marked.2)

theorem decode_append (decoder : Decoder) (xs ys : List UInt8) :
    decoder.decode (xs ++ ys) =
      (((decoder.decode xs).1.decode ys).1,
        (decoder.decode xs).2 ++ ((decoder.decode xs).1.decode ys).2) := by
  unfold decode
  dsimp only
  rw [decodeBytes_append, dropMark_append]

end Decoder

/-- `text.split("\n\n")`. -/
def blocks : List Char → List (List Char)
  | [] => [[]]
  | '\n' :: '\n' :: rest => [] :: blocks rest
  | c :: rest => (blocks rest).modifyHead (c :: ·)

theorem blocks_ne_nil (text : List Char) : blocks text ≠ [] := by
  fun_induction blocks text with
  | case1 => simp
  | case2 rest ih => simp
  | case3 c rest hne ih => simpa using ih

variable {c d : Char} {rest : List Char}

theorem blocks_cons (hne : ¬ (c = '\n' ∧ d = '\n')) :
    blocks (c :: d :: rest) = (blocks (d :: rest)).modifyHead (c :: ·) := by
  rw [blocks]
  intro others hc hothers
  obtain ⟨hd, _⟩ := cons.inj hothers
  exact hne ⟨hc, hd⟩

variable {text : List Char}

theorem eq_of_blocks_singleton {block : List Char} (hblocks : blocks text = [block]) :
    block = text := by
  fun_induction blocks text generalizing block with
  | case1 => simpa using hblocks.symm
  | case2 rest ih => simp [blocks_ne_nil] at hblocks
  | case3 c rest hne ih =>
    cases hrest : blocks rest with
    | nil => exact absurd hrest (blocks_ne_nil rest)
    | cons first others =>
      rw [hrest, modifyHead_cons, cons.injEq] at hblocks
      obtain ⟨rfl, rfl⟩ := hblocks
      rw [ih hrest]

variable {last : List Char} {done : List (List Char)}

/-- Only the last block depends on what follows. -/
theorem blocks_append (more : List Char) (hblocks : blocks text = done ++ [last]) :
    blocks (text ++ more) = done ++ blocks (last ++ more) := by
  fun_induction blocks text generalizing done last with
  | case1 =>
    cases done with
    | nil =>
      cases hblocks
      rfl
    | cons first others => simp at hblocks
  | case2 rest ih =>
    cases done with
    | nil => simp [blocks_ne_nil] at hblocks
    | cons first others =>
      rw [cons_append, cons.injEq] at hblocks
      rw [cons_append, cons_append, blocks, ih hblocks.2, ← hblocks.1, cons_append]
  | case3 c rest hne ih =>
    cases done with
    | nil =>
      have hlast : blocks (c :: rest) = [last] := by
        rw [blocks]
        exacts [hblocks, hne]
      rw [eq_of_blocks_singleton hlast, nil_append]
    | cons first others =>
      cases hrest : blocks rest with
      | nil => exact absurd hrest (blocks_ne_nil rest)
      | cons head tail =>
        rw [hrest, modifyHead_cons, cons_append, cons.injEq] at hblocks
        obtain ⟨rfl, rfl⟩ := hblocks
        cases rest with
        | nil => simp [blocks] at hrest
        | cons d rest =>
          have hne' : ¬ (c = '\n' ∧ d = '\n') := fun h => hne rest h.1 (by rw [h.2])
          have hmore : blocks (d :: rest ++ more) = head :: others ++ blocks (last ++ more) :=
            ih hrest
          rw [cons_append, cons_append, blocks_cons hne', ← cons_append, hmore]
          rfl

def Unsplit (text : List Char) : Prop := blocks text = [text]

instance : DecidablePred Unsplit := fun text => inferInstanceAs (Decidable (blocks text = [text]))

theorem unsplit_last (hblocks : blocks text = done ++ [last]) : Unsplit last := by
  have hsame := blocks_append [] hblocks
  rw [append_nil, append_nil, hblocks] at hsame
  exact (append_cancel_left hsame).symm

theorem unsplit_nil : Unsplit [] := rfl

theorem unsplit_cons_cons :
    Unsplit (c :: d :: rest) ↔ ¬ (c = '\n' ∧ d = '\n') ∧ Unsplit (d :: rest) := by
  unfold Unsplit
  by_cases hne : c = '\n' ∧ d = '\n'
  · obtain ⟨rfl, rfl⟩ := hne
    simp [blocks]
  · rw [blocks_cons hne]
    cases hblocks : blocks (d :: rest) with
    | nil => exact absurd hblocks (blocks_ne_nil _)
    | cons first others => simp [hne]

theorem Unsplit.append {more : List Char} (htext : Unsplit text) (hmore : Unsplit more)
    (hhead : more.head? ≠ some '\n') : Unsplit (text ++ more) := by
  induction text with
  | nil => exact hmore
  | cons c text ih =>
    cases text with
    | nil =>
      cases more with
      | nil => exact htext
      | cons d more => exact unsplit_cons_cons.mpr ⟨fun h => hhead (by rw [h.2]; rfl), hmore⟩
    | cons d text =>
      have hrest := unsplit_cons_cons.mp htext
      exact unsplit_cons_cons.mpr ⟨hrest.1, ih hrest.2⟩

theorem blocks_closed (htext : Unsplit text) (hlast : text.getLast? ≠ some '\n') :
    blocks (text ++ ['\n', '\n']) = [text, []] := by
  induction text with
  | nil => rfl
  | cons c text ih =>
    cases text with
    | nil =>
      have hc : ¬ (c = '\n' ∧ '\n' = '\n') := fun h => hlast (by rw [h.1]; rfl)
      change blocks (c :: '\n' :: ['\n']) = _
      rw [blocks_cons hc]
      rfl
    | cons d text =>
      have hrest := unsplit_cons_cons.mp htext
      have hclosed := ih hrest.2 (by rwa [getLast?_cons_cons] at hlast)
      change blocks (c :: d :: (text ++ ['\n', '\n'])) = _
      rw [blocks_cons hrest.1, ← cons_append, hclosed]
      rfl

def asciiText (bytes : List UInt8) : List Char := bytes.map fun byte => Char.ofNat byte.toNat

theorem firstByte_ascii {byte : Nat} (hascii : byte < 128) :
    firstByte byte = (.start, [Char.ofNat byte]) := by
  rw [firstByte, if_pos (by omega)]

variable {byte : UInt8}

theorem decodeByte_ascii (state : Utf8) (hascii : byte.toNat < 128) :
    decodeByte state byte =
      (.start, (if state.needed = 0 then [] else [replacement]) ++ [Char.ofNat byte.toNat]) := by
  unfold decodeByte
  rw [firstByte_ascii hascii]
  by_cases hneeded : state.needed = 0
  · rw [if_pos hneeded, if_pos hneeded]
    rfl
  · have hlower := state.lower_ge
    rw [if_neg hneeded, if_pos (by omega), if_neg hneeded]
    rfl

variable {bytes : List UInt8}

theorem decodeBytes_start (hascii : ∀ byte ∈ bytes, byte.toNat < 128) :
    decodeBytes .start bytes = (.start, asciiText bytes) := by
  induction bytes with
  | nil => rfl
  | cons byte bytes ih =>
    rw [forall_mem_cons] at hascii
    simp only [decodeBytes]
    rw [decodeByte_ascii .start hascii.1, ih hascii.2]
    rfl

/-- A character that was begun is given up before plain text. -/
theorem decodeBytes_ascii (state : Utf8) (hascii : ∀ b ∈ byte :: bytes, b.toNat < 128) :
    decodeBytes state (byte :: bytes) =
      (.start, (if state.needed = 0 then [] else [replacement]) ++ asciiText (byte :: bytes)) := by
  rw [forall_mem_cons] at hascii
  simp only [decodeBytes]
  rw [decodeByte_ascii state hascii.1, decodeBytes_start hascii.2, append_assoc]
  rfl

theorem dropMark_of_head {begun : Bool} (hc : c ≠ byteOrderMark) :
    dropMark begun (c :: text) = (true, c :: text) := by
  cases begun with
  | true => rfl
  | false => rw [dropMark, if_neg hc]

theorem ascii_ne_byteOrderMark : ∀ byte < 128, Char.ofNat byte ≠ byteOrderMark := by decide

theorem Decoder.decode_ascii (decoder : Decoder) (hascii : ∀ b ∈ byte :: bytes, b.toNat < 128) :
    (decoder.decode (byte :: bytes)).2 =
      (if decoder.utf8.needed = 0 then [] else [replacement]) ++ asciiText (byte :: bytes) := by
  unfold decode
  dsimp only
  rw [decodeBytes_ascii decoder.utf8 hascii]
  by_cases hneeded : decoder.utf8.needed = 0
  · have hmark := ascii_ne_byteOrderMark byte.toNat (hascii byte mem_cons_self)
    rw [if_pos hneeded, nil_append, asciiText, map_cons, dropMark_of_head hmark]
  · rw [if_neg hneeded, singleton_append, dropMark_of_head (by decide)]

end TextStream
