import Mathlib.Data.List.Dedup
import Mathlib.Data.List.Flatten
import Mathlib.Data.List.Induction
import Mathlib.Data.List.Perm.Basic

/-! # Episodes of failures

Several things are tried again and again. An episode of one of them begins with
a failure and ends with its next success, however many failures come between.
What is recorded under a key in turn, together with what is recorded under other
keys, is all that is recorded under it.
-/

namespace Episodes

variable {κ τ : Type*}

/-- When the episode began that is open after the trial, given the one that was open before it. -/
def stillOpen (since : Option τ) : τ × Bool → Option τ
  | (_, true) => none
  | (time, false) => some (since.getD time)

/-- When the episode began that is open after the trials. -/
def openAfter (since : Option τ) (trials : List (τ × Bool)) : Option τ := trials.foldl stillOpen since

/-- The episodes that the trials end, each with its first failure and the success. -/
def closings : Option τ → List (τ × Bool) → List (τ × τ)
  | _, [] => []
  | since, (time, true) :: trials => (since.toList.map (·, time)) ++ closings none trials
  | since, (time, false) :: trials => closings (some (since.getD time)) trials

/-- Nothing had been tried, or it succeeded last. -/
def Settled (trials : List (τ × Bool)) : Prop := ∀ last ∈ trials.getLast?, last.2 = true

def AllFailed (trials : List (τ × Bool)) : Prop := ∀ trial ∈ trials, trial.2 = false

section Trials

variable {since : Option τ} {first second trials : List (τ × Bool)} {time : τ}

theorem openAfter_append :
    openAfter since (first ++ second) = openAfter (openAfter since first) second :=
  List.foldl_append

theorem closings_append : closings since (first ++ second) =
    closings since first ++ closings (openAfter since first) second := by
  induction first generalizing since with
  | nil => rfl
  | cons trial first ih =>
    obtain ⟨time, succeeded⟩ := trial
    cases succeeded with
    | false => exact ih
    | true =>
      simp only [List.cons_append, closings, List.append_assoc]
      congr 1
      exact ih

theorem openAfter_failures (h : AllFailed trials) : openAfter (some time) trials = some time := by
  induction trials with
  | nil => rfl
  | cons trial trials ih =>
    obtain ⟨tried, succeeded⟩ := trial
    have hfailed : succeeded = false := h _ List.mem_cons_self
    subst hfailed
    exact ih fun other hother => h other (List.mem_cons_of_mem _ hother)

theorem closings_failures (h : AllFailed trials) : closings since trials = [] := by
  induction trials generalizing since with
  | nil => rfl
  | cons trial trials ih =>
    obtain ⟨tried, succeeded⟩ := trial
    have hfailed : succeeded = false := h _ List.mem_cons_self
    subst hfailed
    exact ih fun other hother => h other (List.mem_cons_of_mem _ hother)

theorem openAfter_none_iff : openAfter none trials = none ↔ Settled trials := by
  induction trials using List.reverseRecOn with
  | nil => simp [openAfter, Settled]
  | append_singleton trials trial =>
    obtain ⟨time, succeeded⟩ := trial
    cases succeeded <;> simp [openAfter, stillOpen, Settled]

/-- An episode is open since the first of the failures that came last. -/
theorem openAfter_eq_some_iff : openAfter none trials = some time ↔
    ∃ before failures, trials = before ++ (time, false) :: failures ∧ Settled before ∧
      AllFailed failures := by
  constructor
  · intro h
    induction trials using List.reverseRecOn with
    | nil => cases h
    | append_singleton trials trial ih =>
      obtain ⟨tried, succeeded⟩ := trial
      rw [openAfter_append] at h
      cases succeeded with
      | true => cases h
      | false =>
        cases hbefore : openAfter none trials with
        | none =>
          rw [hbefore] at h
          cases h
          exact ⟨trials, [], rfl, openAfter_none_iff.mp hbefore, fun _ hnil => nomatch hnil⟩
        | some since =>
          rw [hbefore] at h
          cases h
          obtain ⟨before, failures, rfl, hsettled, hfailed⟩ := ih hbefore
          refine ⟨before, failures ++ [(tried, false)], by simp, hsettled, ?_⟩
          intro trial hmem
          rcases List.mem_append.mp hmem with hmem | hmem
          · exact hfailed trial hmem
          · rw [List.mem_singleton.mp hmem]
  · rintro ⟨before, failures, rfl, hsettled, hfailed⟩
    rw [openAfter_append, openAfter_none_iff.mpr hsettled]
    exact openAfter_failures hfailed

/-- An episode ends once, with the first success after its failures. -/
theorem closings_episode {before failures later : List (τ × Bool)} {ended : τ}
    (hsettled : Settled before) (hfailed : AllFailed failures) :
    closings none (before ++ (time, false) :: failures ++ (ended, true) :: later) =
      closings none before ++ (time, ended) :: closings none later := by
  have hepisode : closings none ((time, false) :: failures) = [] :=
    closings_failures (List.forall_mem_cons.mpr ⟨rfl, hfailed⟩)
  have hopen : openAfter none (before ++ (time, false) :: failures) = some time :=
    openAfter_eq_some_iff.mpr ⟨before, failures, rfl, hsettled, hfailed⟩
  rw [closings_append, hopen, closings_append, openAfter_none_iff.mpr hsettled, hepisode,
    List.append_nil]
  rfl

/-- A success ends nothing when nothing has failed before it. -/
theorem closings_settled (hsettled : Settled trials) :
    closings none (trials ++ [(time, true)]) = closings none trials := by
  rw [closings_append, openAfter_none_iff.mpr hsettled]
  exact List.append_nil _

end Trials

/-! ## Trials of many things -/

section Keyed

variable [DecidableEq κ] {since : κ → Option τ} {trials : List (κ × τ × Bool)} {key : κ}

/-- The trials of one thing. -/
def trialsOf (key : κ) (trials : List (κ × τ × Bool)) : List (τ × Bool) :=
  trials.filterMap fun trial => if trial.1 = key then some trial.2 else none

/-- The episodes that the trials end, each under its key. -/
def closingsAll : (κ → Option τ) → List (κ × τ × Bool) → List (κ × τ × τ)
  | _, [] => []
  | since, (key, trial) :: trials =>
    (closings (since key) [trial]).map (key, ·) ++
      closingsAll (Function.update since key (stillOpen (since key) trial)) trials

theorem trialsOf_append (first second : List (κ × τ × Bool)) :
    trialsOf key (first ++ second) = trialsOf key first ++ trialsOf key second :=
  List.filterMap_append

theorem trialsOf_cons (other : κ) (trial : τ × Bool) : trialsOf key ((other, trial) :: trials) =
    if other = key then trial :: trialsOf key trials else trialsOf key trials := by
  unfold trialsOf
  rw [List.filterMap_cons]
  by_cases h : other = key <;> simp [h]

theorem mem_keys_of_trialsOf {trial : τ × Bool} (h : trial ∈ trialsOf key trials) :
    key ∈ trials.map Prod.fst := by
  obtain ⟨⟨other, _⟩, hmem, hsame⟩ := List.mem_filterMap.mp h
  split at hsame
  · next hkey =>
    exact List.mem_map.mpr ⟨_, hmem, hkey⟩
  · cases hsame

/-- Only what was tried has an episode. -/
theorem mem_keys_of_open (h : (openAfter none (trialsOf key trials)).isSome) :
    key ∈ trials.map Prod.fst := by
  cases hcase : trialsOf key trials with
  | nil =>
    rw [hcase] at h
    cases h
  | cons trial rest =>
    have hmem : trial ∈ trialsOf key trials := by simp [hcase]
    exact mem_keys_of_trialsOf hmem

/-- When each key of a list succeeds at the same time. -/
theorem trialsOf_successes {keys : List κ} {time : τ} (hkeys : keys.Nodup) :
    trialsOf key (keys.map (·, time, true)) = if key ∈ keys then [(time, true)] else [] := by
  induction keys with
  | nil => rfl
  | cons other keys ih =>
    obtain ⟨hother, hkeys⟩ := List.nodup_cons.mp hkeys
    rw [List.map_cons, trialsOf_cons, ih hkeys]
    by_cases h : other = key
    · subst h
      simp [hother]
    · simp [h, Ne.symm h]

/-- What is ended under one key depends on its own trials only. -/
theorem filter_closingsAll : ((closingsAll since trials).filter fun ending => ending.1 = key) =
    (closings (since key) (trialsOf key trials)).map (key, ·) := by
  induction trials generalizing since with
  | nil => rfl
  | cons trial trials ih =>
    obtain ⟨other, trial⟩ := trial
    rw [closingsAll, List.filter_append, ih, trialsOf_cons]
    by_cases h : other = key
    · subst h
      rw [if_pos rfl, Function.update_self,
        show trial :: trialsOf other trials = [trial] ++ trialsOf other trials from rfl,
        closings_append, List.map_append]
      congr 1
      rw [List.filter_eq_self]
      intro ending hending
      obtain ⟨_, -, rfl⟩ := List.mem_map.mp hending
      exact decide_eq_true rfl
    · rw [if_neg h, Function.update_of_ne (Ne.symm h)]
      have hnone : (((closings (since other) [trial]).map (other, ·)).filter
          fun ending => ending.1 = key) = [] := by
        rw [List.filter_eq_nil_iff]
        intro ending hending
        obtain ⟨_, -, rfl⟩ := List.mem_map.mp hending
        simpa using h
      rw [hnone, List.nil_append]

theorem openAfter_trialsOf_cons {other : κ} {trial : τ × Bool} :
    (fun key => openAfter (since key) (trialsOf key ((other, trial) :: trials))) = fun key =>
      openAfter (Function.update since other (stillOpen (since other) trial) key)
        (trialsOf key trials) := by
  funext key
  rw [trialsOf_cons]
  by_cases h : other = key
  · subst h
    rw [if_pos rfl, Function.update_self]
    rfl
  · rw [if_neg h, Function.update_of_ne (Ne.symm h)]

theorem closingsAll_append (first second : List (κ × τ × Bool)) :
    closingsAll since (first ++ second) = closingsAll since first ++
      closingsAll (fun key => openAfter (since key) (trialsOf key first)) second := by
  induction first generalizing since with
  | nil => rfl
  | cons trial first ih =>
    obtain ⟨key, trial⟩ := trial
    rw [List.cons_append, closingsAll, closingsAll, ih, openAfter_trialsOf_cons, List.append_assoc]

theorem mem_keys_of_closingsAll {ending : κ × τ × τ} (h : ending ∈ closingsAll since trials) :
    ending.1 ∈ trials.map Prod.fst := by
  induction trials generalizing since with
  | nil => cases h
  | cons trial trials ih =>
    rw [closingsAll, List.mem_append] at h
    rcases h with h | h
    · obtain ⟨_, -, rfl⟩ := List.mem_map.mp h
      exact List.mem_cons_self
    · exact List.mem_cons_of_mem _ (ih h)

/-- Entries grouped by their keys are the entries. -/
theorem flatMap_filter_perm {α : Type*} {f : α → κ} {entries : List α} {keys : List κ}
    (hkeys : keys.Nodup) (hmem : ∀ entry ∈ entries, f entry ∈ keys) :
    (keys.flatMap fun key => entries.filter fun entry => f entry = key).Perm entries := by
  induction keys generalizing entries with
  | nil =>
    have hnil : entries = [] := List.eq_nil_iff_forall_not_mem.mpr fun entry h => nomatch hmem entry h
    rw [hnil]
    exact List.Perm.nil
  | cons key keys ih =>
    obtain ⟨hkey, hkeys⟩ := List.nodup_cons.mp hkeys
    have hothers := @ih (entries.filter fun entry => !decide (f entry = key)) hkeys (by
      intro entry h
      rw [List.mem_filter] at h
      rcases List.mem_cons.mp (hmem entry h.1) with hsame | hother
      · simp [hsame] at h
      · exact hother)
    have hsame : (keys.flatMap fun other => (entries.filter fun entry =>
        !decide (f entry = key)).filter fun entry => f entry = other) =
          keys.flatMap fun other => entries.filter fun entry => f entry = other := by
      apply List.flatMap_congr
      intro other hother
      rw [List.filter_filter]
      apply List.filter_congr
      intro entry _
      have hne : other ≠ key := fun h => hkey (h ▸ hother)
      by_cases h : f entry = other <;> simp [h, hne]
    rw [hsame] at hothers
    rw [List.flatMap_cons]
    exact (hothers.append_left _).trans (List.filter_append_perm _ entries)

end Keyed

end Episodes
