import ControlPlane.Provisioner.Plan
import ControlPlane.Model

/-!
# Facts about text

Bytes and characters agree on ASCII; the classes of the patterns are those of the server's character
tests.
-/

namespace ControlPlane

namespace Text

open List

variable {c : Char} {s : String} {cs : List Char} {n : Nat} {rest : String}

theorem utf8Size_of_ascii (hc : c.toNat < 128) : c.utf8Size = 1 := by
  apply Char.utf8Size_eq_one_iff.mpr
  exact Nat.le_of_lt_succ hc

theorem utf8ByteSize_ofList (hascii : ∀ c ∈ cs, c.toNat < 128) :
    (String.ofList cs).utf8ByteSize = cs.length := by
  induction cs with
  | nil => rfl
  | cons c cs ih =>
    have hrest := ih fun d hd => hascii d (mem_cons_of_mem c hd)
    have hsplit : String.ofList ([c] ++ cs) = String.ofList [c] ++ String.ofList cs :=
      String.ofList_append
    rw [singleton_append, ← String.singleton_eq_ofList] at hsplit
    rw [hsplit, String.utf8ByteSize_append, String.utf8ByteSize_singleton, hrest,
      utf8Size_of_ascii (hascii c mem_cons_self), length_cons]
    omega

theorem utf8ByteSize_of_ascii (hascii : ∀ c ∈ s.toList, c.toNat < 128) :
    s.utf8ByteSize = s.toList.length := by
  rw [← utf8ByteSize_ofList hascii, String.ofList_toList]

theorem takeBytes_of_ascii (hascii : ∀ c ∈ cs, c.toNat < 128) : takeBytes n cs = cs.take n := by
  induction cs generalizing n with
  | nil => simp [takeBytes]
  | cons c cs ih =>
    have hrest {n : Nat} : takeBytes n cs = cs.take n :=
      ih fun d hd => hascii d (mem_cons_of_mem c hd)
    rw [takeBytes, utf8Size_of_ascii (hascii c mem_cons_self), hrest]
    cases n with
    | zero => rfl
    | succ n => simp

theorem fromUtf8_encoded : fromUtf8 (s.toList.flatMap String.utf8EncodeChar) = some s := by
  have hdecode : s.toList.utf8Encode.utf8Decode? = some s.toList.toArray := utf8Decode?_utf8Encode
  rw [utf8Encode] at hdecode
  simp [fromUtf8, hdecode]

theorem toList_of_strip {start : String} (hstrip : strip start s = some rest) :
    s.toList = start.toList ++ rest.toList := by
  unfold strip at hstrip
  split_ifs at hstrip with hprefix
  rw [← Option.some.inj hstrip, String.toList_ofList]
  obtain ⟨tail, htail⟩ := isPrefixOf_iff_prefix.mp hprefix
  rw [← htail, drop_left]

theorem toList_of_stripEnd {finish : String} (hstrip : stripEnd finish s = some rest) :
    s.toList = rest.toList ++ finish.toList := by
  unfold stripEnd at hstrip
  split_ifs at hstrip with hsuffix
  obtain ⟨front, hfront⟩ := isSuffixOf_iff_suffix.mp hsuffix
  rw [← Option.some.inj hstrip, String.toList_ofList, ← hfront, length_append, Nat.add_sub_cancel,
    take_left]

theorem trim_eq_self (hs : ∀ c ∈ s.toList, isWhitespace c = false) : trim s = s := by
  have hkeep : ∀ cs : List Char, (∀ c ∈ cs, isWhitespace c = false) → cs.dropWhile isWhitespace = cs := by
    intro cs hcs
    cases cs with
    | nil => rfl
    | cons c rest => simp [hcs c]
  unfold trim
  rw [hkeep _ hs, hkeep _ (by simpa using hs), reverse_reverse, String.ofList_toList]

def isLowerHex (c : Char) : Bool := isAsciiDigit c || ('a' ≤ c ∧ c ≤ 'f')

theorem isLowerHex_digitChar (hn : n < 16) : isLowerHex (Nat.digitChar n) = true := by
  revert n
  decide

theorem isLowerHex_of_mem_toDigits (hc : c ∈ Nat.toDigits 16 n) : isLowerHex c = true := by
  induction n using Nat.strongRecOn with
  | ind n ih =>
    rw [Nat.toDigits_eq_if (by decide)] at hc
    split_ifs at hc with hlt
    · rw [mem_singleton.mp hc]
      exact isLowerHex_digitChar hlt
    · obtain hc | hc := mem_append.mp hc
      · exact ih (n / 16) (by omega) hc
      · rw [mem_singleton.mp hc]
        exact isLowerHex_digitChar (Nat.mod_lt n (by decide))

theorem isLowerHex_of_mem_hex {width : Nat} (hc : c ∈ (hex width n).toList) :
    isLowerHex c = true := by
  rw [hex, String.toList_ofList] at hc
  obtain hc | hc := mem_append.mp hc
  · rw [eq_of_mem_replicate hc]
    rfl
  · exact isLowerHex_of_mem_toDigits hc

theorem le_length_hex (width n : Nat) : width ≤ (hex width n).toList.length := by
  rw [hex, String.toList_ofList, length_append, length_replicate]
  omega

theorem toNat_of_isAsciiLowercase (hc : isAsciiLowercase c = true) :
    97 ≤ c.toNat ∧ c.toNat ≤ 122 := of_decide_eq_true hc

theorem toNat_of_isAsciiDigit (hc : isAsciiDigit c = true) :
    48 ≤ c.toNat ∧ c.toNat ≤ 57 := of_decide_eq_true hc

theorem toNat_of_isLowerHex (hc : isLowerHex c = true) :
    (48 ≤ c.toNat ∧ c.toNat ≤ 57) ∨ (97 ≤ c.toNat ∧ c.toNat ≤ 102) := by
  obtain hc | hc := Bool.or_eq_true_iff.mp hc
  · exact Or.inl (toNat_of_isAsciiDigit hc)
  · exact Or.inr (of_decide_eq_true hc)

end Text

namespace Provisioner

open Pattern (range mem_range)

variable {c : Char}

@[simp]
theorem mem_lowercase : c ∈ lowercase ↔ Text.isAsciiLowercase c = true := by
  rw [lowercase, mem_range (by decide), Text.isAsciiLowercase, decide_eq_true_iff]

@[simp]
theorem mem_digit : c ∈ digit ↔ Text.isAsciiDigit c = true := by
  rw [digit, mem_range (by decide), Text.isAsciiDigit, decide_eq_true_iff]

end Provisioner

end ControlPlane
