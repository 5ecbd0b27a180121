import ControlPlane.Timestamps

/-!
# Decoding and comparing times

When the server decodes a tuple to exactly its instant and as the browser does, when the next show
is the soonest, and by which timestamp a section is judged.
-/

namespace ControlPlane.Timestamps

namespace Outcome

variable {α β : Type} {x : Outcome α} {f : α → Outcome β}

@[simp]
theorem bind_eq_value {b : β} : x >>= f = value b ↔ ∃ a, x = value a ∧ f a = value b := by
  cases x <;> simp [bind]

@[simp]
theorem bind_eq_panic : x >>= f = panic ↔ x = panic ∨ ∃ a, x = value a ∧ f a = panic := by
  cases x <;> simp [bind]

@[simp]
theorem ofOption_eq_value {o : Option α} {a : α} : ofOption o = value a ↔ o = some a := by
  cases o <;> simp [ofOption]

@[simp]
theorem ofOption_eq_nothing {o : Option α} : ofOption o = nothing ↔ o = none := by
  cases o <;> simp [ofOption]

@[simp]
theorem ofOption_ne_panic {o : Option α} : ofOption o ≠ panic := by
  cases o <;> simp [ofOption]

end Outcome

open NaiveDateTime List Option

variable {arr : List (Option Int)} {t utc : NaiveDateTime} {offset : Int}

structure Fields where
  year : Int
  ordinal : Int
  hour : Int
  minute : Int
  second : Int
  nano : Int
  offset : Int

/-- The fields are where the tuple has them. -/
structure Fields.Read (x : Fields) (arr : List (Option Int)) : Prop where
  date : int arr 0 = .value x.year ∧ int arr 1 = .value x.ordinal
  time : int arr 2 = .value x.hour ∧ int arr 3 = .value x.minute ∧ int arr 4 = .value x.second ∧
    int arr 5 = .value x.nano
  offset : (9 ≤ arr.length ∧ ∃ h m s, int arr 6 = .value h ∧ int arr 7 = .value m ∧
    int arr 8 = .value s ∧ x.offset = h * 3600 + m * 60 + s) ∨
    arr.length = 7 ∧ int arr 6 = .value x.offset

/-- The fields are those of a real time, with an offset below a day. -/
structure Fields.Real (x : Fields) : Prop where
  ordinal : 1 ≤ x.ordinal ∧ x.ordinal ≤ daysInYear x.year
  hour : 0 ≤ x.hour ∧ x.hour < 24
  minute : 0 ≤ x.minute ∧ x.minute < 60
  second : 0 ≤ x.second ∧ x.second < 60
  nano : 0 ≤ x.nano ∧ x.nano < 1000000000
  offset : -86400 < x.offset ∧ x.offset < 86400

def Fields.instant (x : Fields) : Int :=
  (86400 * (daysBefore x.year + x.ordinal) + 3600 * x.hour + 60 * x.minute + x.second - x.offset) *
    1000000000 + x.nano

theorem exists_read (hlocal : localTime arr = .value t)
    (hoffset : offsetSeconds arr = .value offset) :
    ∃ x : Fields, x.Read arr ∧ x.offset = offset ∧ fromYoOpt x.year x.ordinal = some t.day ∧
      fromHmsNanoOpt x.hour x.minute x.second x.nano = some (t.second, t.nano) := by
  simp only [localTime, Outcome.bind_eq_value, Outcome.ofOption_eq_value] at hlocal
  obtain ⟨y, hy, o, ho, day, hday, h, hh, mi, hmi, s, hs, n, hn, time, htime, hpure⟩ := hlocal
  cases hpure
  refine ⟨⟨y, o, h, mi, s, n, offset⟩, ⟨⟨hy, ho⟩, ⟨hh, hmi, hs, hn⟩, ?_⟩, rfl, hday, htime⟩
  unfold offsetSeconds at hoffset
  split_ifs at hoffset with hnine hseven
  · have hchecked (n m : Int) (hn : checked n = .value m) : n = m := by
      unfold checked at hn
      split_ifs at hn
      exact Outcome.value.inj hn
    simp only [Outcome.bind_eq_value] at hoffset
    obtain ⟨h, hh, hours, hhours, m, hm, minutes, hminutes, sum, hsum, s, hs, hoffset⟩ := hoffset
    refine .inl ⟨hnine, h, m, s, hh, hm, hs, ?_⟩
    rw [← hchecked _ _ hoffset, ← hchecked _ _ hsum, ← hchecked _ _ hhours, ← hchecked _ _ hminutes]
  · exact .inr ⟨hseven, hoffset⟩

theorem Fields.Read.eq {x x' : Fields} (hx : x.Read arr) (hx' : x'.Read arr) : x = x' := by
  obtain ⟨⟨hy, ho⟩, ⟨hh, hm, hs, hn⟩, hoffset⟩ := hx
  obtain ⟨⟨hy', ho'⟩, ⟨hh', hm', hs', hn'⟩, hoffset'⟩ := hx'
  cases x
  cases x'
  grind

theorem real_iff {x : Fields} (hday : fromYoOpt x.year x.ordinal = some t.day)
    (htime : fromHmsNanoOpt x.hour x.minute x.second x.nano = some (t.second, t.nano)) :
    x.Real ∧ (t.plus (-x.offset)).instant = x.instant ↔
      t.nano < 1000000000 ∧ -86400 < x.offset ∧ x.offset < 86400 := by
  obtain ⟨hdate, hday⟩ := ite_none_right_eq_some.mp hday
  obtain ⟨htimes, htime⟩ := ite_none_right_eq_some.mp htime
  simp only [some.injEq, Prod.mk.injEq] at hday htime
  obtain ⟨hsecond, hnano⟩ := htime
  constructor
  · rintro ⟨hreal, -⟩
    exact ⟨hnano ▸ hreal.nano.2, hreal.offset⟩
  · rintro ⟨hbelow, hoffset⟩
    refine ⟨⟨hdate.2.2, htimes.1, htimes.2.1, htimes.2.2.1, ⟨htimes.2.2.2.1, hnano ▸ hbelow⟩,
      hoffset⟩, ?_⟩
    simp only [instant, plus, settled, hbelow, true_or, if_true, Fields.instant]
    omega

/-- What a decoding should be: without a panic, and of a real time to exactly its instant. -/
def Exact (arr : List (Option Int)) : Prop :=
  timeTupleToIso arr ≠ .panic ∧ ∀ utc, timeTupleToIso arr = .value utc →
    ∃ x : Fields, x.Read arr ∧ x.Real ∧ utc.instant = x.instant

/-- **When a time tuple is decoded exactly.** If chrono takes the date and the time, the offset has
to be free of overflow, below a day and within chrono's range, and the nanoseconds below a billion.
-/
theorem decoded_exactly_iff (document : List Json) :
    Exact (document.map asI64) ↔ ∀ t, localTime (document.map asI64) = .value t →
      offsetSeconds (document.map asI64) ≠ .panic ∧
      ∀ offset, offsetSeconds (document.map asI64) = .value offset →
        t.nano < 1000000000 ∧ (-86400 < offset ∧ offset < 86400) ∧ (t.plus (-offset)).InRange := by
  generalize document.map asI64 = arr
  have hminus (t : NaiveDateTime) (offset : Int) :
      t.minus offset = .panic ↔ ¬ (t.plus (-offset)).InRange := by
    simp [minus]
  constructor
  · rintro ⟨hpanic, hvalue⟩ t hlocal
    have hparts : offsetSeconds arr ≠ .panic ∧
        ∀ offset, offsetSeconds arr = .value offset → (t.plus (-offset)).InRange := by
      simpa [timeTupleToIso, hlocal, hminus, not_or] using hpanic
    refine ⟨hparts.1, fun offset hoffset => ?_⟩
    have hrange := hparts.2 offset hoffset
    obtain ⟨x, hread, rfl, hday, htime⟩ := exists_read hlocal hoffset
    obtain ⟨x', hread', hreal, hinstant⟩ := hvalue (t.plus (-x.offset))
      (by simp [timeTupleToIso, hlocal, hoffset, minus, hrange])
    obtain rfl := hread.eq hread'
    obtain ⟨hnano, hbelow⟩ := (real_iff hday htime).mp ⟨hreal, hinstant⟩
    exact ⟨hnano, hbelow, hrange⟩
  · intro htame
    refine ⟨fun hpanic => ?_, fun utc hutc => ?_⟩
    · have hlocal : localTime arr ≠ .panic := by simp [localTime, int, pure]
      simp only [timeTupleToIso, Outcome.bind_eq_panic, hlocal, false_or] at hpanic
      obtain ⟨t, hlocal, hoffset | ⟨offset, hoffset, hout⟩⟩ := hpanic
      · exact (htame t hlocal).1 hoffset
      · exact (hminus t offset).mp hout ((htame t hlocal).2 offset hoffset).2.2
    · simp only [timeTupleToIso, Outcome.bind_eq_value] at hutc
      obtain ⟨t, hlocal, offset, hoffset, hvalue⟩ := hutc
      obtain ⟨hnano, hbelow, hrange⟩ := (htame t hlocal).2 offset hoffset
      rw [minus, if_pos hrange] at hvalue
      cases hvalue
      obtain ⟨x, hread, rfl, hday, htime⟩ := exists_read hlocal hoffset
      exact ⟨x, hread, (real_iff hday htime).mpr ⟨hnano, hbelow⟩⟩

/-- The hours of an offset overflow; an offset of a whole day is taken. -/
theorem decoded_inexactly :
    timeTupleToIso ([2024, 1, 0, 0, 0, 0, 9000000000000000000, 0, 0].map fun n => asI64 (.num n)) =
        .panic ∧
      timeTupleToIso ([2024, 2, 0, 0, 0, 0, 86400].map fun n => asI64 (.num n)) =
        .value ⟨daysBefore 2024 + 1, 0, 0⟩ := by
  decide

def Integers (v : List Number) (ints : List Int) : Prop :=
  List.Forall₂ (fun number n => number.toInteger = some n) v ints

/-- The server reads a tuple the browser takes, and reads the same second. -/
def ReadAlike (v : List Number) : Prop :=
  ∀ ints, Integers v ints → isOffsetDateTimeTuple ints = true →
    ∃ utc, timeTupleToIso (v.map Number.asI64) = .value utc ∧
      utc.instant / 1000000000 - 86400 * 719163 = timeArrayToDate ints / 1000

theorem eq_int {a : Number} {n m : Int} (hinteger : a.toInteger = some n)
    (hread : a.asI64 = some m) : a = .int n ∧ n = m := by
  cases a with
  | real q => cases hread
  | int k =>
    simp only [Number.toInteger, Number.asI64, ite_none_right_eq_some, some.injEq]
      at hinteger hread
    exact ⟨by rw [hinteger.2], hinteger.2.symm.trans hread.2⟩

/-- The day and the second exist, and a leap second is only left backwards. -/
def Plain : List Int → Prop
  | [year, ordinal, _, _, second, nano, offH, offM, offS] =>
    ordinal ≤ daysInYear year ∧ second < 60 ∧
      (nano < 1000000000 ∨ second = 59 ∧ nano < 2000000000 ∧ offH * 3600 + offM * 60 + offS < 0)
  | _ => False

variable {v : List Number} {ints : List Int}

theorem plain_of_alike (hints : Integers v ints) (hshape : isOffsetDateTimeTuple ints = true)
    (hutc : timeTupleToIso (v.map Number.asI64) = .value utc)
    (hsame : utc.instant / 1000000000 - 86400 * 719163 = timeArrayToDate ints / 1000) :
    v = ints.map .int ∧ Plain ints := by
  match ints, hshape with
  | [year, ordinal, hour, minute, second, nano, offH, offM, offS], hshape =>
    simp only [Integers, forall₂_cons_right_iff, forall₂_nil_right_iff] at hints
    obtain ⟨a0, _, h0, ⟨a1, _, h1, ⟨a2, _, h2, ⟨a3, _, h3, ⟨a4, _, h4, ⟨a5, _, h5, ⟨a6, _, h6,
      ⟨a7, _, h7, ⟨a8, _, h8, rfl, rfl⟩, rfl⟩, rfl⟩, rfl⟩, rfl⟩, rfl⟩, rfl⟩, rfl⟩, rfl⟩ := hints
    simp only [timeTupleToIso, Outcome.bind_eq_value] at hutc
    obtain ⟨t, hlocal, offset, hoffset, hminus⟩ := hutc
    obtain ⟨x, hread, rfl, hday, htime⟩ := exists_read hlocal hoffset
    obtain ⟨hdate, htimes, ⟨-, oh, om, os, hoffsets⟩ | ⟨hlength, -⟩⟩ := hread
    · simp [int] at hdate htimes hoffsets
      obtain ⟨rfl, rfl⟩ := eq_int h0 hdate.1
      obtain ⟨rfl, rfl⟩ := eq_int h1 hdate.2
      obtain ⟨rfl, rfl⟩ := eq_int h2 htimes.1
      obtain ⟨rfl, rfl⟩ := eq_int h3 htimes.2.1
      obtain ⟨rfl, rfl⟩ := eq_int h4 htimes.2.2.1
      obtain ⟨rfl, rfl⟩ := eq_int h5 htimes.2.2.2
      obtain ⟨rfl, rfl⟩ := eq_int h6 hoffsets.1
      obtain ⟨rfl, rfl⟩ := eq_int h7 hoffsets.2.1
      obtain ⟨rfl, rfl⟩ := eq_int h8 hoffsets.2.2.1
      obtain ⟨hdate, hday⟩ := ite_none_right_eq_some.mp hday
      obtain ⟨htimes, htime⟩ := ite_none_right_eq_some.mp htime
      simp only [some.injEq, Prod.mk.injEq] at hday htime
      rw [minus] at hminus
      split_ifs at hminus with hrange
      cases hminus
      refine ⟨rfl, hdate.2.2.2, htimes.2.2.1.2, or_iff_not_imp_left.mpr fun habove => ?_⟩
      simp only [instant, plus, settled, timeArrayToDate, dateUtc, daysBefore,
        getElem?_cons_zero, getElem?_cons_succ, getD_some] at hsame hday
      split_ifs at hsame <;> dsimp only at hsame <;> omega
    · simp at hlength

theorem alike_of_plain (hshape : isOffsetDateTimeTuple ints = true) (hplain : Plain ints) :
    ∃ utc, timeTupleToIso ((ints.map Number.int).map Number.asI64) = .value utc ∧
      utc.instant / 1000000000 - 86400 * 719163 = timeArrayToDate ints / 1000 := by
  match ints, hshape, hplain with
  | [year, ordinal, hour, minute, second, nano, offH, offM, offS], hshape, hplain =>
    simp only [isOffsetDateTimeTuple, decide_eq_true_eq] at hshape
    simp only [Plain] at hplain
    have hread (n : Int) (hn : -100 ≤ n ∧ n < 2000000000) : Number.asI64 (.int n) = some n :=
      if_pos (by simp [inI64]; omega)
    have hchecked (n : Int) (hn : -100000 ≤ n ∧ n ≤ 100000) : checked n = .value n :=
      if_pos (by simp [inI64]; omega)
    have harr : ([year, ordinal, hour, minute, second, nano, offH, offM, offS].map Number.int).map
        Number.asI64 = [some year, some ordinal, some hour, some minute, some second, some nano,
          some offH, some offM, some offS] := by
      simp (disch := omega) only [map_cons, map_nil, hread]
    have hday : fromYoOpt year ordinal = some (daysBefore year + ordinal) := if_pos (by omega)
    have htime : fromHmsNanoOpt hour minute second nano =
        some (3600 * hour + 60 * minute + second, nano) := if_pos (by omega)
    have hoffset : offsetSeconds [some year, some ordinal, some hour, some minute, some second,
        some nano, some offH, some offM, some offS] =
          .value (offH * 3600 + offM * 60 + offS) := by
      rw [offsetSeconds, if_pos (by simp)]
      simp only [Outcome.bind_eq_value]
      exact ⟨offH, rfl, _, hchecked _ (by omega), offM, rfl, _, hchecked _ (by omega), _,
        hchecked _ (by omega), offS, rfl, hchecked _ (by omega)⟩
    refine ⟨plus ⟨daysBefore year + ordinal, 3600 * hour + 60 * minute + second, nano⟩
      (-(offH * 3600 + offM * 60 + offS)), ?_, ?_⟩
    · rw [harr]
      simp only [timeTupleToIso, localTime, Outcome.bind_eq_value, Outcome.ofOption_eq_value]
      refine ⟨_, ⟨_, rfl, _, rfl, _, hday, _, rfl, _, rfl, _, rfl, _, rfl, _, htime, rfl⟩, _,
        hoffset, if_pos ?_⟩
      simp only [InRange, plus, settled, daysBefore]
      split_ifs <;> omega
    · simp only [instant, plus, settled, timeArrayToDate, dateUtc, daysBefore,
        getElem?_cons_zero, getElem?_cons_succ, getD_some]
      split_ifs <;> omega

/-- **When the server and the browser read one second.** Every number of the tuple has to be written
as an integer, and the day and the second have to exist. -/
theorem tuples_read_alike_iff (v : List Number) :
    ReadAlike v ↔ ∀ ints, Integers v ints → isOffsetDateTimeTuple ints = true →
      v = ints.map .int ∧ Plain ints := by
  constructor
  · intro halike ints hints hshape
    obtain ⟨utc, hutc, hsame⟩ := halike ints hints hshape
    exact plain_of_alike hints hshape hutc hsame
  · intro hplain ints hints hshape
    obtain ⟨rfl, hday⟩ := hplain ints hints hshape
    exact alike_of_plain hshape hday

/-- The browser takes the 366th day of a year that has 365. -/
theorem tuple_read_by_browser_only : ¬ ReadAlike ([2023, 366, 0, 0, 0, 0, 0, 0, 0].map .int) := by
  intro halike
  have hdouble : 3000 < 2 ^ 1024 - 2 ^ 970 := by decide +kernel
  have hinteger (n : Int) (hn : n.natAbs < 3000) : Number.toInteger (.int n) = some n := by
    rw [Number.toInteger, if_pos (Nat.lt_trans hn hdouble)]
  obtain ⟨utc, hutc, -⟩ := halike [2023, 366, 0, 0, 0, 0, 0, 0, 0] (by simp [Integers, hinteger])
    (by decide)
  have hnothing : timeTupleToIso
      (([2023, 366, 0, 0, 0, 0, 0, 0, 0].map Number.int).map Number.asI64) = .nothing := by decide
  cases hnothing.symm.trans hutc

variable {shows : Json} {events : List Json}

/-- The part is in the document, so many containers deep at most. -/
inductive Within : Nat → Json → Json → Prop
  | here {levels : Nat} {part : Json} : Within levels part part
  | child {levels : Nat} {document child part : Json} (hmem : child ∈ children document)
      (hwithin : Within levels child part) : Within (levels + 1) document part

variable (chrono : Chrono)

/-- An object of the document has a recognised key, and its value is read so. -/
def Evidence (levels : Nat) (document : Json) (outcome : Outcome NaiveDateTime) : Prop :=
  ∃ part, Within levels document part ∧ ∃ field ∈ timestampFieldNames, ∃ value,
    part.get field = some value ∧ parseTimestampField chrono value = outcome

def Stale (document : Json) (now : NaiveDateTime) (staleAfterSeconds : Int) : Prop :=
  ∃ fresh, freshnessForSection chrono document now staleAfterSeconds = .value fresh ∧
    fresh.get "classification" = some (.str "stale")

/-- One field or element more, anywhere. A tuple that is a timestamp stays the one it is. -/
inductive Inserted : Json → Json → Prop
  | field {before after : List (String × Json)} {key : String} (value : Json)
      (hnew : Json.lookup key (before ++ after) = none) :
      Inserted (.obj (before ++ after)) (.obj (before ++ (key, value) :: after))
  | element {before after : List Json} (value : Json) :
      Inserted (.arr (before ++ after)) (.arr (before ++ value :: after))
  | inField {before after : List (String × Json)} {key : String} {value value' : Json}
      (hinserted : Inserted value value')
      (hkept : key ∈ timestampFieldNames → ∀ t, parseTimestampField chrono value = .value t →
        parseTimestampField chrono value' = .value t) :
      Inserted (.obj (before ++ (key, value) :: after)) (.obj (before ++ (key, value') :: after))
  | inElement {before after : List Json} {value value' : Json} (hinserted : Inserted value value') :
      Inserted (.arr (before ++ value :: after)) (.arr (before ++ value' :: after))

variable {chrono} {levels : Nat} {document document' : Json} {outcome : Outcome NaiveDateTime}

theorem mem_collectTimestamps :
    outcome ∈ collectTimestamps chrono levels document ↔ Evidence chrono levels document outcome := by
  constructor
  · induction levels generalizing document with
    | zero =>
      intro hmem
      rw [collectTimestamps, append_nil, mem_filterMap] at hmem
      obtain ⟨field, hfield, hread⟩ := hmem
      exact ⟨document, .here, field, hfield, map_eq_some_iff.mp hread⟩
    | succ levels ih =>
      intro hmem
      rw [collectTimestamps, mem_append, mem_filterMap, mem_flatMap] at hmem
      obtain ⟨field, hfield, hread⟩ | ⟨child, hchild, hmem⟩ := hmem
      · exact ⟨document, .here, field, hfield, map_eq_some_iff.mp hread⟩
      · obtain ⟨part, hwithin, hread⟩ := ih hmem
        exact ⟨part, .child hchild hwithin, hread⟩
  · rintro ⟨part, hwithin, field, hfield, hread⟩
    induction hwithin with
    | here =>
      unfold collectTimestamps
      apply mem_append_left
      exact mem_filterMap.mpr ⟨field, hfield, map_eq_some_iff.mpr hread⟩
    | child hmem hwithin ih =>
      rw [collectTimestamps, mem_append, mem_flatMap]
      exact .inr ⟨_, hmem, ih hread⟩

theorem lookup_append {name : String} {before after : List (String × Json)} :
    Json.lookup name (before ++ after) =
      (Json.lookup name before).or (Json.lookup name after) := by
  induction before with
  | nil => rfl
  | cons head rest ih => grind [Json.lookup]

theorem Inserted.get {field : String} {value : Json} (hinserted : Inserted chrono document document')
    (hfield : field ∈ timestampFieldNames) (hvalue : document.get field = some value)
    (hread : parseTimestampField chrono value = .value t) :
    ∃ value', document'.get field = some value' ∧ parseTimestampField chrono value' = .value t := by
  cases hinserted with
  | field => grind [Json.get, Json.lookup, lookup_append]
  | @inField before =>
    cases hbefore : Json.lookup field before <;> grind [Json.get, Json.lookup, lookup_append]
  | element | inElement => simp [Json.get] at hvalue

theorem Inserted.child {child : Json} (hinserted : Inserted chrono document document')
    (hmem : child ∈ children document) :
    ∃ child' ∈ children document', child' = child ∨ Inserted chrono child child' := by
  cases hinserted with
  | field | element => exact ⟨child, by grind [children], .inl rfl⟩
  | @inField _ _ _ value value' hinserted | @inElement _ _ value value' hinserted =>
    by_cases hsame : child = value
    · exact ⟨value', by simp [children], .inr (hsame ▸ hinserted)⟩
    · exact ⟨child, by grind [children], .inl rfl⟩

theorem Inserted.evidence (hinserted : Inserted chrono document document')
    (hevidence : Evidence chrono levels document (.value t)) :
    Evidence chrono levels document' (.value t) := by
  obtain ⟨part, hwithin, field, hfield, value, hvalue, hread⟩ := hevidence
  induction hwithin generalizing document' with
  | here => exact ⟨document', .here, field, hfield, hinserted.get hfield hvalue hread⟩
  | child hmem hwithin ih =>
    obtain ⟨child', hmem', rfl | hinserted⟩ := hinserted.child hmem
    · exact ⟨_, .child hmem' hwithin, field, hfield, value, hvalue, hread⟩
    · obtain ⟨part', hwithin', hread'⟩ := ih hinserted hvalue
      exact ⟨part', .child hmem' hwithin', hread'⟩

theorem oldestUpstreamTimestamp_eq (hquiet : ¬ Evidence chrono 3 document .panic) :
    ∃ times : List NaiveDateTime, (∀ t, t ∈ times ↔ Evidence chrono 3 document (.value t)) ∧
      oldestUpstreamTimestamp chrono document = .ofOption times.min? := by
  refine ⟨_, fun t => ?_, if_neg (mem_collectTimestamps.not.mpr hquiet)⟩
  rw [← mem_collectTimestamps, mem_filterMap]
  grind

theorem stale_iff {now : NaiveDateTime} {staleAfterSeconds : Int} :
    Stale chrono document now staleAfterSeconds ↔ ∃ ts limit,
      oldestUpstreamTimestamp chrono document = .value ts ∧
        now.minus (max staleAfterSeconds 1) = .value limit ∧ ts < limit := by
  rw [Stale, freshnessForSection]
  cases oldestUpstreamTimestamp chrono document with
  | value ts =>
    cases now.minus (max staleAfterSeconds 1) with
    | value limit => by_cases hlt : ts < limit <;> simp [hlt, Json.get, Json.lookup, pure, bind]
    | _ => simp [bind]
  | _ => simp [Json.get, Json.lookup, pure]

theorem oldest_evidence_counts (hquiet : ¬ Evidence chrono 3 document .panic) :
    (∀ t, oldestUpstreamTimestamp chrono document = .value t ↔
      IsLeast {t | Evidence chrono 3 document (.value t)} t) ∧
    (oldestUpstreamTimestamp chrono document = .nothing ↔
      ∀ t, ¬ Evidence chrono 3 document (.value t)) ∧
    ∀ document', Relation.ReflTransGen (Inserted chrono) document document' →
      ¬ Evidence chrono 3 document' .panic →
      (∀ t, oldestUpstreamTimestamp chrono document = .value t →
        ∃ t' ≤ t, oldestUpstreamTimestamp chrono document' = .value t') ∧
      ∀ now staleAfterSeconds, Stale chrono document now staleAfterSeconds →
        Stale chrono document' now staleAfterSeconds := by
  obtain ⟨times, hmem, holdest⟩ := oldestUpstreamTimestamp_eq hquiet
  have hvalue (t : NaiveDateTime) : oldestUpstreamTimestamp chrono document = .value t ↔
      IsLeast {t | Evidence chrono 3 document (.value t)} t := by
    rw [holdest, Outcome.ofOption_eq_value, min?_eq_some_iff]
    simp only [hmem]
    rfl
  refine ⟨hvalue, ?_, fun document' hinserted hquiet' => ?_⟩
  · rw [holdest, Outcome.ofOption_eq_nothing, min?_eq_none_iff, eq_nil_iff_forall_not_mem]
    simp only [hmem]
  · have hkept (t : NaiveDateTime) (ht : oldestUpstreamTimestamp chrono document = .value t) :
        ∃ t' ≤ t, oldestUpstreamTimestamp chrono document' = .value t' := by
      have hevidence : Evidence chrono 3 document' (.value t) := by
        have hfirst := ((hvalue t).mp ht).1
        clear * - hfirst hinserted
        induction hinserted with
        | refl => exact hfirst
        | tail _ hstep ih => exact hstep.evidence ih
      obtain ⟨times', hmem', holdest'⟩ := oldestUpstreamTimestamp_eq hquiet'
      cases hmin : times'.min? with
      | none => simp [min?_eq_none_iff.mp hmin, ← hmem'] at hevidence
      | some t' =>
        have hle := (min?_eq_some_iff.mp hmin).2 t ((hmem' t).mpr hevidence)
        exact ⟨t', hle, by rw [holdest', hmin, Outcome.ofOption]⟩
    refine ⟨hkept, fun now staleAfterSeconds hstale => ?_⟩
    obtain ⟨ts, limit, hts, hlimit, hlt⟩ := stale_iff.mp hstale
    obtain ⟨t', hle, ht'⟩ := hkept ts hts
    exact stale_iff.mpr ⟨t', limit, ht', hlimit, hle.trans_lt hlt⟩

def newYear (year : Int) : NaiveDateTime := ⟨daysBefore year + 1, 0, 0⟩

/-- It knows the first days of two years. -/
def twoYears : Chrono where
  parseFromRfc3339 text :=
    some (newYear (if text = "2020-01-01T00:00:00+00:00" then 2020 else 2025))
  toRfc3339 t :=
    if t = newYear 2020 then "2020-01-01T00:00:00+00:00" else "2025-01-01T00:00:00+00:00"

def checkup (updatedAt : List Int) : Json :=
  .obj [("updated_at", .arr (updatedAt.map .num)),
    ("checked_at", .arr ([2025, 1, 0, 0, 0, 0, 0].map .num))]

theorem oldest_evidence_counts_checkup :
    IsLeast {t | Evidence twoYears 3 (checkup [2020, 1, 0, 0, 0, 0, 0]) (.value t)} (newYear 2020) :=
  ((oldest_evidence_counts (mem_collectTimestamps.not.mp (by decide))).1 _).mp
    (by decide)

/-- With an element more the tuple is no timestamp. -/
theorem tuple_outgrown :
    oldestUpstreamTimestamp twoYears (checkup [2020, 1, 0, 0, 0, 0, 0]) = .value (newYear 2020) ∧
    oldestUpstreamTimestamp twoYears (checkup [2020, 1, 0, 0, 0, 0, 0, 0]) =
      .value (newYear 2025) ∧ newYear 2020 < newYear 2025 := by
  decide

end ControlPlane.Timestamps
