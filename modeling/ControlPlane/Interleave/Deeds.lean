import ControlPlane.Interleave.Run
import ControlPlane.Interleave.Trace

/-!
# What the sessions of a run have done

What the process of a call promises about its own operations, whatever they are answered, holds of
them in every run.
-/

namespace Interleave

open Function List Option

variable {Op : Type} {Result : Op → Type} {State Choice Env Call α : Type}
  {M : Machine Op Result State Choice Env Call α}
  {ok : List (Event Op Result State Choice Env Call α) → Sys Op Result State Call α →
    Action Choice Env Call → Prop}
  {s t : Sys Op Result State Call α} {history : List (Event Op Result State Choice Env Call α)} {sid : Nat}
  {e : Event Op Result State Choice Env Call α} {may : Trace Op Result → Op → Prop}

variable (M) in
def deed (sid : Nat) (e : Event Op Result State Choice Env Call α) : Option ((o : Op) × Result o) :=
  match e.action with
  | .run other choice =>
    if other = sid then
      (e.before.doing sid).bind fun o => (M.exec e.before.state choice o).map fun r => ⟨o, r.1⟩
    else none
  | _ => none

variable (M) in
def deeds (sid : Nat) (history : List (Event Op Result State Choice Env Call α)) : Trace Op Result :=
  history.reverse.filterMap (deed M sid)

theorem deeds_cons (e : Event Op Result State Choice Env Call α) :
    deeds M sid (e :: history) = deeds M sid history ++ (deed M sid e).toList := by
  cases hdeed : deed M sid e <;> simp [deeds, hdeed]

theorem mem_deeds {step : (o : Op) × Result o} (hmem : step ∈ deeds M sid history) :
    ∃ earlier e choice state, e :: earlier <:+ history ∧ e.does = some (sid, step.1) ∧
      M.exec e.before.state choice step.1 = some (step.2, state) := by
  induction history with
  | nil => cases hmem
  | cons e earlier ih =>
    rw [deeds_cons, mem_append] at hmem
    rcases hmem with hmem | hmem
    · obtain ⟨earlier', e', choice, state, hsuffix, hrest⟩ := ih hmem
      exact ⟨earlier', e', choice, state, hsuffix.trans (suffix_cons _ _), hrest⟩
    · rw [mem_toList, deed] at hmem
      split at hmem
      · rename_i other choice haction
        split_ifs at hmem with heq
        obtain ⟨o, hdoing, hexec⟩ := bind_eq_some_iff.mp hmem
        obtain ⟨⟨answer, state⟩, hanswer, rfl⟩ := map_eq_some_iff.mp hexec
        refine ⟨earlier, e, choice, state, suffix_rfl, ?_, hanswer⟩
        simp [Event.does, haction, heq, hdoing]
      · cases hmem

/-- What was done up to a step is a run of its own. -/
theorem Run.of_suffix {earlier : List (Event Op Result State Choice Env Call α)}
    (hrun : Run M ok s history t) (hsuffix : e :: earlier <:+ history) :
    Run M ok s earlier e.before ∧ step M e.before e.action = some e.after := by
  induction hrun with
  | nil => simp at hsuffix
  | cons hrun _ hstep ih =>
    rcases suffix_cons_iff.mp hsuffix with heq | hsuffix
    · obtain ⟨rfl, rfl⟩ := cons.inj heq
      exact ⟨hrun, hstep⟩
    · exact ih hsuffix

/-- What a process may do after what it has done, with any answers. -/
def logging (may : Trace Op Result → Op → Prop) : Contract Op Result (Trace Op Result) where
  may := may
  gets k o answer k' := k' = k ++ [⟨o, answer⟩]

theorem deeds_cons_of_idle (hidle : ∀ sid, deed M sid e = none) :
    (deeds M · (e :: history)) = (deeds M · history) := by
  funext sid
  rw [deeds_cons, hidle, toList_none, append_nil]

theorem keeps_deeds :
    Keeps M ok (fun _ _ => []) (logging may) fun history s γ =>
      (γ = fun sid => deeds M sid history) ∧ ∀ sid, s.sessions sid = none → γ sid = [] where
  start history s γ sid call t hI _ hnew ht := by
    obtain ⟨hγ, hunstarted⟩ := hI
    have hsame : update γ sid [] = γ := by rw [← hunstarted sid hnew, update_eq_self]
    rw [hsame, deeds_cons_of_idle fun _ => rfl]
    refine ⟨hγ, fun other hnone => hunstarted other ?_⟩
    subst ht
    by_cases heq : other = sid
    · rw [heq, hnew]
    · rwa [Sys.setSession_of_ne _ heq] at hnone
  run history s γ sid choice call o next answer state t hI _ hsession _ hexec ht := by
    obtain ⟨hγ, hunstarted⟩ := hI
    refine ⟨_, rfl, funext fun other => ?_, fun other hnone => ?_⟩ <;> subst ht
    all_goals by_cases heq : other = sid
    · subst heq
      have hself : deed M other ⟨s, .run other choice, s.setSession other ⟨call, some (next answer)⟩ state⟩ =
          some ⟨o, answer⟩ := by simp [deed, Sys.doing, hsession, hexec]
      rw [update_self, deeds_cons, hself, hγ, toList_some]
    · have hother : deed M other ⟨s, .run sid choice, s.setSession sid ⟨call, some (next answer)⟩ state⟩ =
          none := if_neg (Ne.symm heq)
      rw [update_of_ne heq, deeds_cons, hother, hγ, toList_none, append_nil]
    · simp [heq] at hnone
    · rw [Sys.setSession_of_ne _ heq] at hnone
      rw [update_of_ne heq]
      exact hunstarted other hnone
  drop history s γ sid call p t hI _ hsession ht := by
    rw [deeds_cons_of_idle fun _ => rfl]
    refine ⟨hI.1, fun other hnone => hI.2 other ?_⟩
    subst ht
    by_cases heq : other = sid
    · simp [heq] at hnone
    · rwa [Sys.setSession_of_ne _ heq] at hnone
  env history s γ e t hI _ ht := by
    rw [deeds_cons_of_idle fun _ => rfl]
    subst ht
    exact hI

theorem Run.meets_deeds {promise : Call → Trace Op Result → α → Prop}
    (hcalls : ∀ call, (M.process call).Meets (logging may) [] (promise call))
    (hfresh : ∀ sid, s.sessions sid = none) (hrun : Run M ok s history t) :
    Meeting (logging may) promise t fun sid => deeds M sid history := by
  have hmeeting : Meeting (logging may) promise s fun _ => [] := by
    intro sid call p hsession
    simp [hfresh sid] at hsession
  obtain ⟨γ, ⟨rfl, -⟩, hmeeting⟩ := keeps_deeds.run_induct (fun _ => hcalls)
    ⟨fun _ => [], ⟨rfl, fun _ _ => rfl⟩, hmeeting⟩ hrun
  exact hmeeting

end Interleave
