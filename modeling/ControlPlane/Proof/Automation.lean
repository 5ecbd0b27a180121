import ControlPlane.Automation

/-!
# The Discord throttle

Of the calls of `decideForwardIn` exactly those are told to send that keep its two limits.
-/

namespace ControlPlane.Automation

open List

/-- At most twenty sends in any minute, and ten minutes between two of the same message. -/
structure WithinLimits (sent : List (String × Int)) : Prop where
  rate : ∀ start, sent.countP (fun call => start ≤ call.2 ∧ call.2 < start + fromSecs 60) ≤ 20
  apart : sent.Pairwise fun first later => first.1 = later.1 → first.2 + fromSecs 600 ≤ later.2

variable {calls : List (String × Int)} {call : String × Int}

theorem forwardAll_concat :
    forwardAll (calls ++ [call]) =
      let decided := decideForwardIn (forwardAll calls).2 call.1 call.2
      (if decided.1 = .send then (forwardAll calls).1 ++ [call] else (forwardAll calls).1,
        decided.2) := by
  rw [forwardAll, foldl_append]
  rfl

theorem durationSince_lt {window now t : Int} (hwindow : 0 < window) :
    durationSince now t < window ↔ now < t + window := by
  unfold durationSince
  omega

theorem filter_recent {α : Type} (time : α → Int) (window : Int) {now earlier : Int}
    (hle : earlier ≤ now) (entries : List α) :
    (entries.filter fun entry => durationSince earlier (time entry) < window).filter
        (fun entry => durationSince now (time entry) < window) =
      entries.filter fun entry => durationSince now (time entry) < window := by
  rw [filter_filter]
  apply filter_congr
  intro entry _
  have hrecent : durationSince now (time entry) < window →
      durationSince earlier (time entry) < window := by
    unfold durationSince
    omega
  simpa using hrecent

/-- The throttle forgets only what no longer counts. -/
structure Tracks (calls : List (String × Int)) (now : Int) : Prop where
  messages : (forwardAll calls).2.recentMessages.filter
      (fun entry => durationSince now entry.2 < duplicateSuppressionWindow) =
    (forwardAll calls).1.filter fun entry => durationSince now entry.2 < duplicateSuppressionWindow
  sends : (forwardAll calls).2.recentSends.filter
      (fun sent => durationSince now sent < fromSecs 60) =
    ((forwardAll calls).1.map Prod.snd).filter fun sent => durationSince now sent < fromSecs 60

theorem tracks (calls : List (String × Int)) (now : Int) (hle : ∀ call ∈ calls, call.2 ≤ now) :
    Tracks calls now := by
  induction calls using reverseRecOn with
  | nil => exact ⟨rfl, rfl⟩
  | append_singleton calls call ih =>
    obtain ⟨hmessages, hsends⟩ := ih fun earlier hmem => hle earlier (by simp [hmem])
    have hcall : call.2 ≤ now := hle call (by simp)
    have hkept := filter_recent id (fromSecs 60) hcall
    have hseen := filter_recent (fun entry : String × Int => entry.2)
      duplicateSuppressionWindow hcall
    constructor <;> rw [forwardAll_concat, decideForwardIn] <;> split_ifs <;> simp_all

theorem forwardAll_subset : (forwardAll calls).1 ⊆ calls := by
  induction calls using reverseRecOn with
  | nil => exact nil_subset _
  | append_singleton calls call ih =>
    intro sent hmem
    rw [forwardAll_concat] at hmem
    grind

theorem decide_eq_send (hle : ∀ earlier ∈ calls, earlier.2 ≤ call.2) :
    (decideForwardIn (forwardAll calls).2 call.1 call.2).1 = .send ↔
      (∀ sent ∈ (forwardAll calls).1, sent.1 = call.1 → sent.2 + fromSecs 600 ≤ call.2) ∧
      (forwardAll calls).1.countP (fun sent => call.2 < sent.2 + fromSecs 60) < 20 := by
  obtain ⟨hmessages, hsends⟩ := tracks calls call.2 hle
  have hminute (t : Int) : durationSince call.2 t < fromSecs 60 ↔ call.2 < t + fromSecs 60 :=
    durationSince_lt (by decide)
  have hwindow (t : Int) : durationSince call.2 t < duplicateSuppressionWindow ↔
      call.2 < t + fromSecs 600 := durationSince_lt (by decide)
  unfold decideForwardIn
  simp only [hmessages, hsends, ← countP_eq_length_filter, countP_map]
  simp only [hminute, hwindow, maxForwardsPerMinute, Function.comp_def]
  split_ifs with hseen hfull
  · obtain ⟨sent, hmem, hsame⟩ := any_eq_true.mp hseen
    obtain ⟨hmem, hrecent⟩ := mem_filter.mp hmem
    simp only [decide_eq_true_eq] at hrecent hsame
    refine iff_of_false nofun fun hlimits => ?_
    have hapart := hlimits.1 sent hmem hsame
    omega
  · exact iff_of_false nofun fun hlimits => Nat.not_lt_of_le hfull hlimits.2
  · refine iff_of_true rfl ⟨fun sent hmem hsame => ?_, Nat.lt_of_not_le hfull⟩
    by_contra hrecent
    apply hseen
    exact any_eq_true.mpr ⟨sent, by simp [hmem]; omega, by simp [hsame]⟩

theorem withinLimits_concat {sent : List (String × Int)}
    (hle : ∀ earlier ∈ sent, earlier.2 ≤ call.2) :
    WithinLimits (sent ++ [call]) ↔ WithinLimits sent ∧
      (∀ earlier ∈ sent, earlier.1 = call.1 → earlier.2 + fromSecs 600 ≤ call.2) ∧
      sent.countP (fun earlier => call.2 < earlier.2 + fromSecs 60) < 20 := by
  constructor
  · intro hlimits
    have hrate := hlimits.rate
    simp only [countP_append, countP_singleton] at hrate
    obtain ⟨hapart, -, hlast⟩ := pairwise_append.mp hlimits.apart
    refine ⟨⟨fun start => Nat.le_trans (Nat.le_add_right ..) (hrate start), hapart⟩,
      fun earlier hmem => hlast earlier hmem call (by simp), ?_⟩
    -- the minute that ends with the call
    have hcount := hrate (call.2 - fromSecs 60 + 1)
    rw [if_pos (decide_eq_true ⟨by unfold fromSecs; omega, by omega⟩)] at hcount
    apply Nat.lt_of_le_of_lt (countP_mono_left ?_) hcount
    intro earlier hmem hrecent
    have hearlier := hle earlier hmem
    simp only [decide_eq_true_eq] at hrecent ⊢
    omega
  · rintro ⟨hlimits, hapart, hcount⟩
    refine ⟨fun start => ?_, pairwise_append.mpr ⟨hlimits.apart, by simp, by simpa using hapart⟩⟩
    rw [countP_append, countP_singleton]
    split_ifs with hnow
    · apply Nat.lt_of_le_of_lt (countP_mono_left ?_) hcount
      intro earlier hmem hrecent
      simp only [decide_eq_true_eq] at hnow hrecent ⊢
      omega
    · exact hlimits.rate start

theorem forwards_within_limits (calls : List (String × Int))
    (hordered : calls.Pairwise fun earlier later => earlier.2 ≤ later.2) :
    WithinLimits (forwardAll calls).1 ∧ ∀ before call, before ++ [call] <+: calls →
      (decideForwardIn (forwardAll before).2 call.1 call.2).1 ≠ .send →
        ¬ WithinLimits ((forwardAll before).1 ++ [call]) := by
  have hlast {before : List (String × Int)} {call : String × Int}
      (hbegins : before ++ [call] <+: calls) : ∀ earlier ∈ before, earlier.2 ≤ call.2 := by
    have hpairs := pairwise_append.mp (hordered.sublist hbegins.sublist)
    intro earlier hmem
    exact hpairs.2.2 earlier hmem call (by simp)
  constructor
  · induction calls using reverseRecOn with
    | nil => exact ⟨fun _ => Nat.zero_le _, .nil⟩
    | append_singleton calls call ih =>
      have hle := hlast (prefix_refl _)
      have hlimits := ih (pairwise_append.mp hordered).1 fun hbegins =>
        hlast (hbegins.trans (prefix_append ..))
      rw [forwardAll_concat]
      dsimp only
      split_ifs with hsend
      · exact (withinLimits_concat fun earlier hmem => hle earlier (forwardAll_subset hmem)).mpr
          ⟨hlimits, (decide_eq_send hle).mp hsend⟩
      · exact hlimits
  · intro before call hbegins hrefused hlimits
    have hle := hlast hbegins
    have hconcat := withinLimits_concat fun earlier hmem => hle earlier (forwardAll_subset hmem)
    exact hrefused ((decide_eq_send hle).mpr (hconcat.mp hlimits).2)

theorem forwards_within_limits_repeated :
    ¬ WithinLimits ((forwardAll [("down", 0)]).1 ++ [("down", 5)]) :=
  (forwards_within_limits [("down", 0), ("down", 5)] (by decide)).2 [("down", 0)] ("down", 5)
    (by decide) (by decide)

end ControlPlane.Automation
