import Mathlib.Data.List.Basic
import Mathlib.Data.List.Pairwise

namespace sliding_window

/-- The entries of a log that are at most `window` old at `now`. -/
def recent (window now : Nat) (log : List Nat) : List Nat :=
  log.filter fun t => now ≤ t + window

/-- The entries of a log from `start` to before `stop`. -/
def between (start stop : Nat) (log : List Nat) : List Nat :=
  log.filter fun t => start ≤ t ∧ t < stop

variable {window cap now later : Nat} {log : List Nat}

theorem recent_append {log' : List Nat} : recent window now (log ++ log') = recent window now log ++ recent window now log' :=
  List.filter_append log log'

theorem recent_sublist : (recent window now log).Sublist log :=
  List.filter_sublist

/-- What is recent later is recent now. -/
theorem recent_recent (h : now ≤ later) : recent window later (recent window now log) = recent window later log := by
  unfold recent
  rw [List.filter_filter]
  apply List.filter_congr
  intro t ht
  by_cases hrecent : later ≤ t + window
  · have hnow : now ≤ t + window := by omega
    simp [hrecent, hnow]
  · simp [hrecent]

/-- In an ordered log the recent entries are a tail. -/
theorem recent_cons_of_recent {t : Nat} (hsorted : (t :: log).Pairwise (· ≤ ·)) (h : now ≤ t + window) :
    recent window now (t :: log) = t :: log := by
  unfold recent
  rw [List.filter_eq_self]
  intro u hu
  have hle : t ≤ u := by
    cases List.mem_cons.mp hu with
    | inl heq => exact Nat.le_of_eq heq.symm
    | inr hmem => exact List.rel_of_pairwise_cons hsorted hmem
  simp only [decide_eq_true_eq]
  omega

theorem recent_cons_of_old {t : Nat} (h : t + window < now) : recent window now (t :: log) = recent window now log := by
  have hold : ¬ now ≤ t + window := by omega
  simp [recent, hold]

/-- The logs in which each entry was admitted because fewer than `cap` of the
entries before it were recent. -/
inductive Admitted (window cap : Nat) : List Nat → Prop where
  | empty : Admitted window cap []
  | take {log : List Nat} {now : Nat} (hlog : Admitted window cap log) (hlatest : ∀ t ∈ log, t ≤ now)
      (hfree : (recent window now log).length < cap) : Admitted window cap (log ++ [now])

theorem Admitted.sorted (h : Admitted window cap log) : log.Pairwise (· ≤ ·) := by
  induction h with
  | empty => exact List.Pairwise.nil
  | take hlog hlatest hfree ih =>
    rw [List.pairwise_append]
    refine ⟨ih, List.pairwise_singleton _ _, ?_⟩
    intro t ht u hu
    rw [List.mem_singleton.mp hu]
    exact hlatest t ht

/-- No window of that length holds more than `cap` entries, also not one that
includes both ends. -/
theorem Admitted.between_le (h : Admitted window cap log) (start : Nat) :
    (between start (start + window + 1) log).length ≤ cap := by
  induction h with
  | empty => exact Nat.zero_le cap
  | @take log now hlog hlatest hfree ih =>
    unfold between at ih ⊢
    rw [List.filter_append]
    by_cases hwithin : start ≤ now ∧ now < start + window + 1
    · have hle : (log.filter fun t => start ≤ t ∧ t < start + window + 1).length ≤ (recent window now log).length := by
        apply List.Sublist.length_le
        apply List.monotone_filter_right
        intro t ht
        simp only [decide_eq_true_eq] at ht ⊢
        omega
      rw [List.filter_cons_of_pos (by simpa using hwithin), List.filter_nil, List.length_append, List.length_singleton]
      omega
    · rw [List.filter_cons_of_neg (by simpa using hwithin), List.filter_nil, List.append_nil]
      exact ih

theorem between_mono {start stop stop' : Nat} (h : stop ≤ stop') :
    (between start stop log).length ≤ (between start stop' log).length := by
  apply List.Sublist.length_le
  apply List.monotone_filter_right
  intro t ht
  simp only [decide_eq_true_eq] at ht ⊢
  omega

/-- A queue that is trimmed only when it is read, beside the log of all entries
that it ever took, the last of them not after `latest`. -/
structure Tracks (window cap : Nat) (queue log : List Nat) (latest : Nat) : Prop where
  admitted : Admitted window cap log
  until_latest : ∀ t ∈ log, t ≤ latest
  part : queue.Sublist log
  recent_kept : ∀ now, latest ≤ now → recent window now queue = recent window now log

section Tracks

variable {queue : List Nat} {latest : Nat}

theorem tracks_empty : Tracks window cap [] [] 0 where
  admitted := .empty
  until_latest _ ht := absurd ht List.not_mem_nil
  part := List.Sublist.slnil
  recent_kept _ _ := rfl

theorem Tracks.sorted (h : Tracks window cap queue log latest) : queue.Pairwise (· ≤ ·) :=
  h.admitted.sorted.sublist h.part

theorem Tracks.wait (h : Tracks window cap queue log latest) (hlater : latest ≤ later) :
    Tracks window cap queue log later where
  admitted := h.admitted
  until_latest t ht := Nat.le_trans (h.until_latest t ht) hlater
  part := h.part
  recent_kept now hnow := h.recent_kept now (Nat.le_trans hlater hnow)

theorem Tracks.trim (h : Tracks window cap queue log now) : Tracks window cap (recent window now queue) log now where
  admitted := h.admitted
  until_latest := h.until_latest
  part := recent_sublist.trans h.part
  recent_kept later hlater := by
    rw [recent_recent hlater]
    exact h.recent_kept later hlater

theorem Tracks.take (h : Tracks window cap queue log now) (hfree : (recent window now queue).length < cap) :
    Tracks window cap (queue ++ [now]) (log ++ [now]) now where
  admitted := .take h.admitted h.until_latest (by rwa [← h.recent_kept now (Nat.le_refl now)])
  until_latest t ht := by
    cases List.mem_append.mp ht with
    | inl hold => exact h.until_latest t hold
    | inr hnew => exact Nat.le_of_eq (List.mem_singleton.mp hnew)
  part := h.part.append (List.Sublist.refl _)
  recent_kept later hlater := by
    rw [recent_append, recent_append, h.recent_kept later hlater]

end Tracks

end sliding_window
