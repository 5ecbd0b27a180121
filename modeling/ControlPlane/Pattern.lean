import Mathlib

/-!
# Patterns of characters

Character classes and bounded repetition on top of Mathlib's regular expressions; what a pattern
accepts is a statement about lists of characters.
-/

namespace Pattern

open List RegularExpression

variable {cs : List Char} {w : List Char} {n lo hi : Nat} {p : RegularExpression Char} {s : String}

def range (first last : Char) : List Char :=
  (List.range' first.toNat (last.toNat + 1 - first.toNat)).map Char.ofNat

/-- `[…]`. -/
def oneOf (cs : List Char) : RegularExpression Char := cs.foldr (fun c p => .char c + p) 0

def literal (s : String) : RegularExpression Char := s.toList.foldr (fun c p => .char c * p) 1

def times : Nat → RegularExpression Char → RegularExpression Char
  | 0, _ => 1
  | n + 1, p => p * times n p

def upTo : Nat → RegularExpression Char → RegularExpression Char
  | 0, _ => 1
  | n + 1, p => 1 + p * upTo n p

def between (lo hi : Nat) (p : RegularExpression Char) : RegularExpression Char :=
  times lo p * upTo (hi - lo) p

def plus (p : RegularExpression Char) : RegularExpression Char := p * p.star

def fullmatch (p : RegularExpression Char) (s : String) : Bool := p.rmatch s.toList

theorem fullmatch_iff : fullmatch p s = true ↔ s.toList ∈ p.matches' :=
  rmatch_iff_matches' p s.toList

theorem mem_range {first last c : Char} (hlast : last.toNat < 0xD800) :
    c ∈ range first last ↔ first ≤ c ∧ c ≤ last := by
  have hle {a b : Char} : a ≤ b ↔ a.toNat ≤ b.toNat := Iff.rfl
  simp only [range, mem_map, mem_range'_1, hle]
  constructor
  · rintro ⟨k, ⟨hfirst, hk⟩, rfl⟩
    have hvalid : k.isValidChar := Or.inl (by omega)
    have hnat : (Char.ofNat k).toNat = k := by
      simp [Char.ofNat, hvalid, Char.ofNatAux, Char.toNat]
    omega
  · rintro ⟨hfirst, hc⟩
    exact ⟨c.toNat, by omega, Char.ofNat_toNat c⟩

@[simp]
theorem mem_oneOf : w ∈ (oneOf cs).matches' ↔ ∃ c ∈ cs, w = [c] := by
  induction cs with
  | nil =>
    simp only [oneOf, foldr_nil, matches'_zero, not_mem_nil, false_and, exists_false, iff_false]
    exact Language.notMem_zero w
  | cons c cs ih =>
    have hchar : w ∈ (char c).matches' ↔ w = [c] := Iff.rfl
    rw [oneOf, foldr_cons, matches'_add, Language.mem_add, ← oneOf, ih, hchar]
    simp

@[simp]
theorem mem_literal : w ∈ (literal s).matches' ↔ w = s.toList := by
  unfold literal
  induction s.toList generalizing w with
  | nil => exact Language.mem_one w
  | cons c cs ih =>
    constructor
    · rintro ⟨u, hu, v, hv, rfl⟩
      obtain rfl : u = [c] := hu
      rw [ih.mp hv]
      rfl
    · rintro rfl
      exact ⟨[c], rfl, cs, ih.mpr rfl, rfl⟩

theorem mem_times_oneOf :
    w ∈ (times n (oneOf cs)).matches' ↔ w.length = n ∧ ∀ c ∈ w, c ∈ cs := by
  induction n generalizing w with
  | zero =>
    rw [times, matches'_epsilon, Language.mem_one, length_eq_zero_iff]
    exact ⟨fun hw => ⟨hw, by simp [hw]⟩, And.left⟩
  | succ n ih =>
    constructor
    · rintro ⟨u, hu, v, hv, rfl⟩
      obtain ⟨c, hc, rfl⟩ := mem_oneOf.mp hu
      obtain ⟨hlength, hall⟩ := ih.mp hv
      exact ⟨by simp [hlength], forall_mem_cons.mpr ⟨hc, hall⟩⟩
    · rintro ⟨hlength, hall⟩
      cases w with
      | nil => cases hlength
      | cons c w =>
        have hw : w ∈ (times n (oneOf cs)).matches' :=
          ih.mpr ⟨Nat.succ.inj hlength, fun d hd => hall d (mem_cons_of_mem c hd)⟩
        exact ⟨[c], mem_oneOf.mpr ⟨c, hall c mem_cons_self, rfl⟩, w, hw, rfl⟩

theorem mem_upTo_oneOf :
    w ∈ (upTo n (oneOf cs)).matches' ↔ w.length ≤ n ∧ ∀ c ∈ w, c ∈ cs := by
  induction n generalizing w with
  | zero =>
    rw [upTo, matches'_epsilon, Language.mem_one, Nat.le_zero, length_eq_zero_iff]
    exact ⟨fun hw => ⟨hw, by simp [hw]⟩, And.left⟩
  | succ n ih =>
    constructor
    · rintro (rfl | ⟨u, hu, v, hv, rfl⟩)
      · simp
      · obtain ⟨c, hc, rfl⟩ := mem_oneOf.mp hu
        obtain ⟨hlength, hall⟩ := ih.mp hv
        exact ⟨by simp [hlength], forall_mem_cons.mpr ⟨hc, hall⟩⟩
    · rintro ⟨hlength, hall⟩
      cases w with
      | nil => exact Or.inl rfl
      | cons c w =>
        have hw : w ∈ (upTo n (oneOf cs)).matches' :=
          ih.mpr ⟨Nat.le_of_succ_le_succ hlength, fun d hd => hall d (mem_cons_of_mem c hd)⟩
        exact Or.inr ⟨[c], mem_oneOf.mpr ⟨c, hall c mem_cons_self, rfl⟩, w, hw, rfl⟩

theorem mem_between_oneOf (hle : lo ≤ hi) :
    w ∈ (between lo hi (oneOf cs)).matches' ↔
      lo ≤ w.length ∧ w.length ≤ hi ∧ ∀ c ∈ w, c ∈ cs := by
  constructor
  · rintro ⟨u, hu, v, hv, rfl⟩
    obtain ⟨hlength, hall⟩ := mem_times_oneOf.mp hu
    obtain ⟨hlength', hall'⟩ := mem_upTo_oneOf.mp hv
    refine ⟨?_, ?_, forall_mem_append.mpr ⟨hall, hall'⟩⟩
    · rw [length_append]
      omega
    · rw [length_append]
      omega
  · rintro ⟨hlo, hhi, hall⟩
    refine ⟨w.take lo, ?_, w.drop lo, ?_, take_append_drop lo w⟩
    · exact mem_times_oneOf.mpr
        ⟨by rw [length_take]; omega, fun c hc => hall c (mem_of_mem_take hc)⟩
    · exact mem_upTo_oneOf.mpr
        ⟨by rw [length_drop]; omega, fun c hc => hall c (mem_of_mem_drop hc)⟩

theorem mem_star_oneOf : w ∈ (oneOf cs).star.matches' ↔ ∀ c ∈ w, c ∈ cs := by
  constructor
  · rintro ⟨parts, rfl, hparts⟩ c hc
    obtain ⟨part, hpart, hmem⟩ := mem_flatten.mp hc
    obtain ⟨d, hd, rfl⟩ := mem_oneOf.mp (hparts part hpart)
    rwa [mem_singleton.mp hmem]
  · intro hall
    refine ⟨w.map ([·]), by simp [← flatMap_def], ?_⟩
    intro part hpart
    obtain ⟨c, hc, rfl⟩ := mem_map.mp hpart
    exact mem_oneOf.mpr ⟨c, hall c hc, rfl⟩

theorem mem_plus_oneOf : w ∈ (plus (oneOf cs)).matches' ↔ w ≠ [] ∧ ∀ c ∈ w, c ∈ cs := by
  constructor
  · rintro ⟨u, hu, v, hv, rfl⟩
    obtain ⟨c, hc, rfl⟩ := mem_oneOf.mp hu
    exact ⟨by simp, forall_mem_cons.mpr ⟨hc, mem_star_oneOf.mp hv⟩⟩
  · rintro ⟨hne, hall⟩
    cases w with
    | nil => exact absurd rfl hne
    | cons c w =>
      have hw : ∀ d ∈ w, d ∈ cs := fun d hd => hall d (mem_cons_of_mem c hd)
      exact ⟨[c], mem_oneOf.mpr ⟨c, hall c mem_cons_self, rfl⟩, w, mem_star_oneOf.mpr hw, rfl⟩

end Pattern
