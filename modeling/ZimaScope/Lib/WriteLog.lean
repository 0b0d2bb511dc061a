import Mathlib.Data.Set.Card

/-! # Write logs over bounded tables

A log of puts and deletes is replayed over a table of optional values. Cut into
stages, each of which puts some entries and then deletes some keys, a log leaves
a key present exactly when its last writer put it. A table whose slots hold a
bounded number of keys accepts a staged log exactly when every stage finds room
and deletes only what is there.
-/

namespace WriteLog

variable {κ α σ : Type*}

/-- One write to a keyed table. -/
inductive Write (κ α : Type*) where
  | put (k : κ) (a : α)
  | del (k : κ)

/-- A batch of puts followed by a batch of deletes. -/
structure Stage (κ α : Type*) where
  puts : List (κ × α)
  dels : List κ

namespace Stage

def putKeys (s : Stage κ α) : List κ := s.puts.map Prod.fst

def writes (s : Stage κ α) : List (Write κ α) :=
  s.puts.map (fun p => .put p.1 p.2) ++ s.dels.map .del

end Stage

/-- The writes of a list of stages, in order. -/
def log (ss : List (Stage κ α)) : List (Write κ α) := ss.flatMap Stage.writes

/-- No stage deletes the key. -/
def Kept (ss : List (Stage κ α)) (k : κ) : Prop := ∀ s ∈ ss, k ∉ s.dels

/-- No stage writes the key. -/
def Untouched (ss : List (Stage κ α)) (k : κ) : Prop := ∀ s ∈ ss, k ∉ s.putKeys ∧ k ∉ s.dels

/-- Some stage puts the key, and neither it nor a later one deletes it. -/
def Restored (ss : List (Stage κ α)) (k : κ) : Prop :=
  ∃ ss₁ s ss₂, ss = ss₁ ++ s :: ss₂ ∧ k ∈ s.putKeys ∧ Kept (s :: ss₂) k

/-- The key is present once the stages have run over the table. -/
def Present (t : κ → Option α) (ss : List (Stage κ α)) (k : κ) : Prop :=
  Restored ss k ∨ (Kept ss k ∧ (t k).isSome)

@[simp] theorem log_nil : log ([] : List (Stage κ α)) = [] := rfl

@[simp] theorem log_cons (s : Stage κ α) (ss : List (Stage κ α)) :
    log (s :: ss) = s.writes ++ log ss := rfl

theorem log_append (ss ss' : List (Stage κ α)) : log (ss ++ ss') = log ss ++ log ss' :=
  List.flatMap_append

theorem del_mem_log {ss : List (Stage κ α)} {k : κ} :
    .del k ∈ log ss ↔ ∃ s ∈ ss, k ∈ s.dels := by
  simp [log, Stage.writes]

theorem put_mem_log {ss : List (Stage κ α)} {k : κ} {a : α} :
    .put k a ∈ log ss ↔ ∃ s ∈ ss, (k, a) ∈ s.puts := by
  simp [log, Stage.writes]

@[simp] theorem kept_nil (k : κ) : Kept ([] : List (Stage κ α)) k := by simp [Kept]

@[simp] theorem kept_cons {s : Stage κ α} {ss : List (Stage κ α)} {k : κ} :
    Kept (s :: ss) k ↔ k ∉ s.dels ∧ Kept ss k := by simp [Kept]

@[simp] theorem untouched_nil (k : κ) : Untouched ([] : List (Stage κ α)) k := by simp [Untouched]

@[simp] theorem untouched_cons {s : Stage κ α} {ss : List (Stage κ α)} {k : κ} :
    Untouched (s :: ss) k ↔ (k ∉ s.putKeys ∧ k ∉ s.dels) ∧ Untouched ss k := by
  simp [Untouched]

@[simp] theorem not_restored_nil (k : κ) : ¬ Restored ([] : List (Stage κ α)) k := by
  rintro ⟨ss₁, s, ss₂, h, _⟩
  simp at h

@[simp] theorem restored_cons {s : Stage κ α} {ss : List (Stage κ α)} {k : κ} :
    Restored (s :: ss) k ↔ Restored ss k ∨ (k ∈ s.putKeys ∧ Kept (s :: ss) k) := by
  constructor
  · rintro ⟨ss₁, s', ss₂, h, hp, hk⟩
    rcases List.cons_eq_append_iff.mp h with ⟨rfl, he⟩ | ⟨ss₁', rfl, he⟩
    · obtain ⟨rfl, rfl⟩ := List.cons.inj he
      exact Or.inr ⟨hp, hk⟩
    · exact Or.inl ⟨ss₁', s', ss₂, he, hp, hk⟩
  · rintro (⟨ss₁, s', ss₂, rfl, hp, hk⟩ | ⟨hp, hk⟩)
    · exact ⟨s :: ss₁, s', ss₂, rfl, hp, hk⟩
    · exact ⟨[], s, ss, rfl, hp, hk⟩

theorem Kept.restored_or_untouched {ss : List (Stage κ α)} {k : κ} (h : Kept ss k) :
    Restored ss k ∨ Untouched ss k := by
  induction ss with
  | nil => exact Or.inr (untouched_nil k)
  | cons s ss ih =>
    obtain ⟨hs, hk⟩ := kept_cons.mp h
    by_cases hp : k ∈ s.putKeys
    · exact Or.inl (restored_cons.mpr (Or.inr ⟨hp, h⟩))
    · rcases ih hk with hr | hu
      · exact Or.inl (restored_cons.mpr (Or.inl hr))
      · exact Or.inr (untouched_cons.mpr ⟨⟨hp, hs⟩, hu⟩)

theorem Untouched.kept {ss : List (Stage κ α)} {k : κ} (h : Untouched ss k) : Kept ss k :=
  fun s hs => (h s hs).2

/-- A key ends up restored or kept exactly when every delete of it is followed
by a stage that puts it. -/
theorem restored_or_kept_iff {ss : List (Stage κ α)} {k : κ} :
    Restored ss k ∨ Kept ss k ↔
      ∀ ss₁ s ss₂, ss = ss₁ ++ s :: ss₂ → k ∈ s.dels → ∃ s' ∈ ss₂, k ∈ s'.putKeys := by
  induction ss with
  | nil => simp
  | cons s ss ih =>
    rw [restored_cons, kept_cons]
    constructor
    · intro h ss₁ s' ss₂ hss hd
      rcases List.cons_eq_append_iff.mp hss with ⟨rfl, he⟩ | ⟨ss₁', rfl, he⟩
      · obtain ⟨rfl, rfl⟩ := List.cons.inj he
        have hr : Restored ss₂ k := by
          rcases h with (hr | ⟨_, hk⟩) | ⟨hn, _⟩
          · exact hr
          · exact absurd hd hk.1
          · exact absurd hd hn
        obtain ⟨ss₁, s', ss₂, rfl, hp, _⟩ := hr
        exact ⟨s', by simp, hp⟩
      · have hs : Restored ss k ∨ Kept ss k := by
          rcases h with (hr | ⟨_, hk⟩) | ⟨_, hk⟩
          · exact Or.inl hr
          · exact Or.inr hk.2
          · exact Or.inr hk
        exact ih.mp hs ss₁' s' ss₂ he hd
    · intro h
      have hs := ih.mpr fun ss₁ s' ss₂ he => h (s :: ss₁) s' ss₂ (by rw [he]; rfl)
      rcases hs with hr | hk
      · exact Or.inl (Or.inl hr)
      · by_cases hd : k ∈ s.dels
        · obtain ⟨s', hs', hp⟩ := h [] s ss rfl hd
          rcases hk.restored_or_untouched with hr | hu
          · exact Or.inl (Or.inl hr)
          · exact absurd hp (hu s' hs').1
        · exact Or.inr ⟨hd, hk⟩

section Replay

variable [DecidableEq κ]

def Write.apply (t : κ → Option α) : Write κ α → κ → Option α
  | .put k a => Function.update t k (some a)
  | .del k => Function.update t k none

/-- Run a log over a table, first write first. -/
def replay (t : κ → Option α) (ws : List (Write κ α)) : κ → Option α := ws.foldl Write.apply t

@[simp] theorem replay_nil (t : κ → Option α) : replay t [] = t := rfl

@[simp] theorem replay_cons (t : κ → Option α) (w : Write κ α) (ws : List (Write κ α)) :
    replay t (w :: ws) = replay (w.apply t) ws := rfl

@[simp] theorem replay_append (t : κ → Option α) (ws ws' : List (Write κ α)) :
    replay t (ws ++ ws') = replay (replay t ws) ws' := List.foldl_append

theorem replay_dels (t : κ → Option α) (ks : List κ) (k : κ) :
    replay t (ks.map .del) k = if k ∈ ks then none else t k := by
  induction ks generalizing t with
  | nil => simp
  | cons k' ks ih =>
    rw [List.map_cons, replay_cons, ih]
    by_cases h : k = k' <;> simp [Write.apply, h]

theorem replay_puts_isSome (t : κ → Option α) (ps : List (κ × α)) (k : κ) :
    (replay t (ps.map fun p => .put p.1 p.2) k).isSome ↔ k ∈ ps.map Prod.fst ∨ (t k).isSome := by
  induction ps generalizing t with
  | nil => simp
  | cons p ps ih =>
    rw [List.map_cons, replay_cons, ih]
    by_cases h : k = p.1 <;> simp [Write.apply, h]

theorem replay_puts_eq_some {t : κ → Option α} {ps : List (κ × α)} {k : κ} {a : α}
    (h : replay t (ps.map fun p => .put p.1 p.2) k = some a) :
    (k, a) ∈ ps ∨ (k ∉ ps.map Prod.fst ∧ t k = some a) := by
  induction ps generalizing t with
  | nil => exact Or.inr ⟨by simp, h⟩
  | cons p ps ih =>
    rcases ih h with hm | ⟨hn, ht⟩
    · exact Or.inl (List.mem_cons_of_mem _ hm)
    · by_cases hk : k = p.1
      · simp only [Write.apply, Function.update_apply, if_pos hk, Option.some.injEq] at ht
        left
        rw [hk, ← ht]
        exact List.mem_cons_self
      · simp only [Write.apply, Function.update_apply, if_neg hk] at ht
        exact Or.inr ⟨by simpa [hk] using hn, ht⟩

namespace Stage

theorem isSome_replay (t : κ → Option α) (s : Stage κ α) (k : κ) :
    (replay t s.writes k).isSome ↔ k ∉ s.dels ∧ (k ∈ s.putKeys ∨ (t k).isSome) := by
  rw [writes, replay_append, replay_dels]
  split
  · simp_all
  · simp_all [replay_puts_isSome, putKeys]

theorem replay_eq_some {t : κ → Option α} {s : Stage κ α} {k : κ} {a : α}
    (h : replay t s.writes k = some a) :
    (k, a) ∈ s.puts ∨ ((k ∉ s.putKeys ∧ k ∉ s.dels) ∧ t k = some a) := by
  rw [writes, replay_append, replay_dels] at h
  split at h
  · simp at h
  · next hd =>
    rcases replay_puts_eq_some h with hp | ⟨hp, ht⟩
    · exact Or.inl hp
    · exact Or.inr ⟨⟨hp, hd⟩, ht⟩

theorem replay_of_untouched {t : κ → Option α} {s : Stage κ α} {k : κ}
    (hp : k ∉ s.putKeys) (hd : k ∉ s.dels) : replay t s.writes k = t k := by
  cases ht : t k with
  | none =>
    rw [← Option.not_isSome_iff_eq_none, isSome_replay, ht]
    simp [hp]
  | some a =>
    obtain ⟨b, hb⟩ := Option.isSome_iff_exists.mp
      ((isSome_replay t s k).mpr ⟨hd, Or.inr (by simp [ht])⟩)
    rcases replay_eq_some hb with hm | ⟨_, h⟩
    · exact absurd (List.mem_map_of_mem hm) hp
    · rw [hb, ← h, ht]

end Stage

/-- A key is present after a staged log exactly when its last writer put it. -/
theorem isSome_replay_log (t : κ → Option α) (ss : List (Stage κ α)) (k : κ) :
    (replay t (log ss) k).isSome ↔ Present t ss k := by
  induction ss generalizing t with
  | nil => simp [Present]
  | cons s ss ih =>
    rw [log_cons, replay_append, ih, Present, Present, Stage.isSome_replay, restored_cons,
      kept_cons]
    tauto

/-- Every entry of the result was put by a stage or was there and never written. -/
theorem replay_log_eq_some {t : κ → Option α} {ss : List (Stage κ α)} {k : κ} {a : α}
    (h : replay t (log ss) k = some a) :
    (∃ s ∈ ss, (k, a) ∈ s.puts) ∨ (Untouched ss k ∧ t k = some a) := by
  induction ss generalizing t with
  | nil => exact Or.inr ⟨untouched_nil k, h⟩
  | cons s ss ih =>
    rw [log_cons, replay_append] at h
    rcases ih h with ⟨s', hs', hp⟩ | ⟨hu, hs⟩
    · exact Or.inl ⟨s', List.mem_cons_of_mem _ hs', hp⟩
    · rcases Stage.replay_eq_some hs with hp | ⟨hn, ht⟩
      · exact Or.inl ⟨s, List.mem_cons_self, hp⟩
      · exact Or.inr ⟨untouched_cons.mpr ⟨hn, hu⟩, ht⟩

theorem replay_log_of_untouched {t : κ → Option α} {ss : List (Stage κ α)} {k : κ}
    (h : Untouched ss k) : replay t (log ss) k = t k := by
  induction ss generalizing t with
  | nil => rfl
  | cons s ss ih =>
    obtain ⟨⟨hp, hd⟩, hu⟩ := untouched_cons.mp h
    rw [log_cons, replay_append, ih hu, Stage.replay_of_untouched hp hd]

/-- When every put is good, the result is good at a key exactly when some stage
restored the key or none wrote it and it was good before. -/
theorem exists_good_replay_log_iff {t : κ → Option α} {ss : List (Stage κ α)} {k : κ}
    {Good : α → Prop} (hg : ∀ s ∈ ss, ∀ a, (k, a) ∈ s.puts → Good a) :
    (∃ a, replay t (log ss) k = some a ∧ Good a) ↔
      Restored ss k ∨ (Untouched ss k ∧ ∃ a, t k = some a ∧ Good a) := by
  constructor
  · rintro ⟨a, ha, hga⟩
    have hp := (isSome_replay_log t ss k).mp (by simp [ha])
    rcases hp with hr | ⟨hk, _⟩
    · exact Or.inl hr
    · rcases hk.restored_or_untouched with hr | hu
      · exact Or.inl hr
      · rw [replay_log_of_untouched hu] at ha
        exact Or.inr ⟨hu, a, ha, hga⟩
  · rintro (hr | ⟨hu, a, ha, hga⟩)
    · obtain ⟨a, ha⟩ := Option.isSome_iff_exists.mp ((isSome_replay_log t ss k).mpr (Or.inl hr))
      rcases replay_log_eq_some ha with ⟨s, hs, hp⟩ | ⟨hu, _⟩
      · exact ⟨a, ha, hg s hs a hp⟩
      · obtain ⟨ss₁, s, ss₂, rfl, hp, _⟩ := hr
        exact absurd hp (hu s (by simp)).1
    · exact ⟨a, by rw [replay_log_of_untouched hu, ha], hga⟩

end Replay

section Bounded

variable [DecidableEq κ] (slot : κ → σ) (cap : ℕ)

/-- The keys of one slot that a table holds. -/
def occupied (t : κ → Option α) (i : σ) : Set κ := {k | slot k = i ∧ (t k).isSome}

/-- A put needs its key present or room in its slot; a delete needs its key present. -/
def Write.Legal (t : κ → Option α) : Write κ α → Prop
  | .put k _ => (t k).isSome ∨ (occupied slot t (slot k)).encard < cap
  | .del k => (t k).isSome

/-- Every write of the log is legal at the point where it runs. -/
def Legal : (κ → Option α) → List (Write κ α) → Prop
  | _, [] => True
  | t, w :: ws => w.Legal slot cap t ∧ Legal (w.apply t) ws

/-- What a stage asks of the stages before it. -/
structure Admits (t : κ → Option α) (ss : List (Stage κ α)) (s : Stage κ α) : Prop where
  room : ∀ i, {k | slot k = i ∧ (Present t ss k ∨ k ∈ s.putKeys)}.encard ≤ cap
  nodup : s.dels.Nodup
  present : ∀ k ∈ s.dels, Present t ss k ∨ k ∈ s.putKeys

variable {slot cap}

@[simp] theorem legal_nil (t : κ → Option α) : Legal slot cap t [] := trivial

theorem legal_append {t : κ → Option α} {ws ws' : List (Write κ α)} :
    Legal slot cap t (ws ++ ws') ↔ Legal slot cap t ws ∧ Legal slot cap (replay t ws) ws' := by
  induction ws generalizing t with
  | nil => simp
  | cons w ws ih =>
    simp only [List.cons_append, Legal, replay_cons, ih, and_assoc]

theorem Write.Legal.encard_le {t : κ → Option α} {w : Write κ α} (h : w.Legal slot cap t)
    (hc : ∀ i, (occupied slot t i).encard ≤ cap) (i : σ) :
    (occupied slot (w.apply t) i).encard ≤ cap := by
  cases w with
  | put k a =>
    have hs : occupied slot (Write.apply t (.put k a)) i ⊆ insert k (occupied slot t i) := by
      rintro k' ⟨hi, hk⟩
      by_cases he : k' = k
      · exact Or.inl he
      · exact Or.inr ⟨hi, by simpa [Write.apply, Function.update_apply, he] using hk⟩
    rcases h with hp | hr
    · refine le_trans (Set.encard_le_encard fun k' hk' => ?_) (hc i)
      rcases hs hk' with rfl | hk
      · exact ⟨hk'.1, hp⟩
      · exact hk
    · by_cases hi : slot k = i
      · subst hi
        exact le_trans (Set.encard_le_encard hs)
          (le_trans (Set.encard_insert_le _ _) (Order.add_one_le_of_lt hr))
      · refine le_trans (Set.encard_le_encard fun k' hk' => ?_) (hc i)
        rcases hs hk' with rfl | hk
        · exact absurd hk'.1 hi
        · exact hk
  | del k =>
    refine le_trans (Set.encard_le_encard ?_) (hc i)
    rintro k' ⟨hi, hk⟩
    refine ⟨hi, ?_⟩
    by_cases he : k' = k
    · simp [Write.apply, he] at hk
    · simpa [Write.apply, Function.update_apply, he] using hk

theorem Legal.encard_le {t : κ → Option α} {ws : List (Write κ α)} (h : Legal slot cap t ws)
    (hc : ∀ i, (occupied slot t i).encard ≤ cap) (i : σ) :
    (occupied slot (replay t ws) i).encard ≤ cap := by
  induction ws generalizing t with
  | nil => exact hc i
  | cons w ws ih => exact ih h.2 (h.1.encard_le hc)

theorem legal_dels {t : κ → Option α} {ks : List κ} :
    Legal slot cap t (ks.map .del) ↔ ks.Nodup ∧ ∀ k ∈ ks, (t k).isSome := by
  induction ks generalizing t with
  | nil => simp
  | cons k ks ih =>
    simp only [List.map_cons, Legal, Write.Legal, ih, List.nodup_cons, List.forall_mem_cons]
    constructor
    · rintro ⟨hk, hn, hp⟩
      have hkn : k ∉ ks := fun hm => by simpa [Write.apply] using hp k hm
      refine ⟨⟨hkn, hn⟩, hk, fun k' hk' => ?_⟩
      have hne : k' ≠ k := fun he => hkn (he ▸ hk')
      simpa [Write.apply, Function.update_apply, hne] using hp k' hk'
    · rintro ⟨⟨hkn, hn⟩, hk, hp⟩
      refine ⟨hk, hn, fun k' hk' => ?_⟩
      have hne : k' ≠ k := fun he => hkn (he ▸ hk')
      simpa [Write.apply, Function.update_apply, hne] using hp k' hk'

/-- Puts over keys that are there need no room. -/
theorem legal_puts_of_present {t : κ → Option α} {ps : List (κ × α)}
    (h : ∀ p ∈ ps, (t p.1).isSome) : Legal slot cap t (ps.map fun p => .put p.1 p.2) := by
  induction ps generalizing t with
  | nil => trivial
  | cons p ps ih =>
    refine ⟨Or.inl (h p List.mem_cons_self), ih fun q hq => ?_⟩
    by_cases hk : q.1 = p.1
    · simp [Write.apply, hk]
    · simpa [Write.apply, Function.update_apply, hk] using h q (List.mem_cons_of_mem _ hq)

theorem legal_puts {t : κ → Option α} {ps : List (κ × α)}
    (hc : ∀ i, (occupied slot t i).encard ≤ cap) :
    Legal slot cap t (ps.map fun p => .put p.1 p.2) ↔
      ∀ i, {k | slot k = i ∧ ((t k).isSome ∨ k ∈ ps.map Prod.fst)}.encard ≤ cap := by
  induction ps generalizing t with
  | nil => simpa [occupied] using hc
  | cons p ps ih =>
    have he : ∀ i, {k | slot k = i ∧ ((Write.apply t (.put p.1 p.2) k).isSome ∨
        k ∈ ps.map Prod.fst)} =
        {k | slot k = i ∧ ((t k).isSome ∨ k ∈ (p :: ps).map Prod.fst)} := by
      intro i
      ext k
      by_cases hk : k = p.1 <;> simp [Write.apply, Function.update_apply, hk]
    rw [List.map_cons, Legal]
    constructor
    · rintro ⟨hw, hl⟩ i
      rw [← he i]
      exact (ih (hw.encard_le hc)).mp hl i
    · intro hr
      have hw : (Write.put p.1 p.2).Legal slot cap t := by
        by_cases hp : (t p.1).isSome
        · exact Or.inl hp
        · right
          have hs : insert p.1 (occupied slot t (slot p.1)) ⊆
              {k | slot k = slot p.1 ∧ ((t k).isSome ∨ k ∈ (p :: ps).map Prod.fst)} := by
            rintro k (rfl | ⟨hi, hk⟩)
            · exact ⟨rfl, Or.inr (by simp)⟩
            · exact ⟨hi, Or.inl hk⟩
          have hle := le_trans (Set.encard_le_encard hs) (hr (slot p.1))
          rw [Set.encard_insert_of_notMem fun hm => hp hm.2] at hle
          exact lt_of_lt_of_le (ENat.lt_add_one_iff
            (ne_top_of_le_ne_top (ENat.natCast_ne_top cap) (hc _)) |>.mpr le_rfl) hle
      refine ⟨hw, (ih (hw.encard_le hc)).mpr fun i => ?_⟩
      rw [he i]
      exact hr i

theorem Stage.legal_iff {t : κ → Option α} {s : Stage κ α}
    (hc : ∀ i, (occupied slot t i).encard ≤ cap) :
    Legal slot cap t s.writes ↔
      (∀ i, {k | slot k = i ∧ ((t k).isSome ∨ k ∈ s.putKeys)}.encard ≤ cap) ∧
        s.dels.Nodup ∧ ∀ k ∈ s.dels, (t k).isSome ∨ k ∈ s.putKeys := by
  rw [Stage.writes, legal_append, legal_puts hc, legal_dels]
  simp only [replay_puts_isSome, putKeys, or_comm]

theorem present_cons (t : κ → Option α) (s : Stage κ α) (ss : List (Stage κ α)) (k : κ) :
    Present t (s :: ss) k ↔ Present (replay t s.writes) ss k := by
  rw [← isSome_replay_log, ← isSome_replay_log, log_cons, replay_append]

/-- A bounded table accepts a staged log exactly when it admits every stage. -/
theorem legal_log_iff {t : κ → Option α} {ss : List (Stage κ α)}
    (hc : ∀ i, (occupied slot t i).encard ≤ cap) :
    Legal slot cap t (log ss) ↔
      ∀ ss₁ s ss₂, ss = ss₁ ++ s :: ss₂ → Admits slot cap t ss₁ s := by
  induction ss generalizing t with
  | nil => simp
  | cons s ss ih =>
    have hfirst : Legal slot cap t s.writes ↔ Admits slot cap t [] s := by
      rw [Stage.legal_iff hc]
      have hp : ∀ k, Present t [] k ↔ (t k).isSome := by simp [Present]
      constructor
      · rintro ⟨hr, hn, hd⟩
        exact ⟨by simpa only [hp] using hr, hn, by simpa only [hp] using hd⟩
      · rintro ⟨hr, hn, hd⟩
        exact ⟨by simpa only [hp] using hr, hn, by simpa only [hp] using hd⟩
    have hrest : ∀ ss₁ s', Admits slot cap (replay t s.writes) ss₁ s' ↔
        Admits slot cap t (s :: ss₁) s' := by
      intro ss₁ s'
      constructor
      · rintro ⟨hr, hn, hd⟩
        exact ⟨by simpa only [present_cons] using hr, hn, by simpa only [present_cons] using hd⟩
      · rintro ⟨hr, hn, hd⟩
        exact ⟨by simpa only [← present_cons] using hr, hn,
          by simpa only [← present_cons] using hd⟩
    rw [log_cons, legal_append]
    constructor
    · rintro ⟨hl, hls⟩ ss₁ s' ss₂ h
      rcases List.cons_eq_append_iff.mp h with ⟨rfl, he⟩ | ⟨ss₁', rfl, he⟩
      · obtain ⟨rfl, rfl⟩ := List.cons.inj he
        exact hfirst.mp hl
      · exact (hrest _ _).mp ((ih (hl.encard_le hc)).mp hls ss₁' s' ss₂ he)
    · intro h
      have hl := hfirst.mpr (h [] s ss rfl)
      refine ⟨hl, (ih (hl.encard_le hc)).mpr fun ss₁ s' ss₂ he => ?_⟩
      exact (hrest _ _).mpr (h (s :: ss₁) s' ss₂ (by rw [he]; rfl))

end Bounded

end WriteLog
