import Mathlib.Data.ENat.Lattice
import Stockroom.Proofs.Retries

/-! The course of a call that is tried again.
The function called answers with one outcome after another. What is made of them is a course:
each failure that another attempt may mend is followed by a pause, and the first other outcome,
or the last attempt, ends it. A wait must be computable after every failed attempt of the
course, the last one included. -/
namespace Stockroom
namespace Attempts

/- The course that the outcomes take -/

variable {α : Type} {s : Settings.Attempts} {outcome : Nat → Except Fault α} {n : Nat}
  {pauses : List (Fault × Binary64)}

/-- No other attempt follows: a result, or a fault that another attempt cannot mend. -/
def Settled (s : Settings.Attempts) : Except Fault α → Prop
  | .ok _ => True
  | .error f => mayRetry s f = false

/-- The number of the first attempt that is settled, counted from one; infinite if none is. -/
noncomputable def settledAt (s : Settings.Attempts) (outcome : Nat → Except Fault α) : ℕ∞ :=
  ⨅ n : {n : Nat // Settled s (outcome n)}, ((n + 1 : Nat) : ℕ∞)

/-- The wait can be computed after each failed attempt that is made. -/
def Timed (s : Settings.Attempts) (outcome : Nat → Except Fault α) : Prop :=
  ∀ n < s.maxAttempts.1, (∀ i ≤ n, ¬Settled s (outcome i)) →
    ∃ wait, waitAfter s (n + 1 : Nat) = .ok wait

def Failed (s : Settings.Attempts) (outcome : Nat → Except Fault α) (n : Nat)
    (pause : Fault × Binary64) : Prop :=
  outcome n = .error pause.1 ∧ mayRetry s pause.1 = true ∧
    waitAfter s (n + 1 : Nat) = .ok pause.2

/-- The pauses after `n` attempts and more, each with the fault before it and its length. -/
inductive Course (s : Settings.Attempts) (outcome : Nat → Except Fault α) :
    Nat → List (Fault × Binary64) → Prop where
  | settled {n : Nat} : n < s.maxAttempts.1 → Settled s (outcome n) → Course s outcome n []
  | exhausted {n : Nat} {pause : Fault × Binary64} : n + 1 = s.maxAttempts.1 →
      Failed s outcome n pause → Course s outcome n []
  | again {n : Nat} {pause : Fault × Binary64} {pauses : List (Fault × Binary64)} :
      n + 1 < s.maxAttempts.1 → Failed s outcome n pause → Course s outcome (n + 1) pauses →
      Course s outcome n (pause :: pauses)

theorem Failed.unsettled {pause : Fault × Binary64} (h : Failed s outcome n pause) :
    ¬Settled s (outcome n) := by
  rw [h.1]
  simp [Settled, h.2.1]

theorem Timed.failed (timed : Timed s outcome) (within : n < s.maxAttempts.1)
    (unsettled : ∀ i ≤ n, ¬Settled s (outcome i)) : ∃ pause, Failed s outcome n pause := by
  obtain ⟨wait, after⟩ := timed n within unsettled
  have unsettled_n := unsettled n (Nat.le_refl n)
  cases result : outcome n with
  | ok a => simp [result, Settled] at unsettled_n
  | error f =>
    have retried : mayRetry s f = true := by simpa [result, Settled] using unsettled_n
    exact ⟨(f, wait), result, retried, after⟩

theorem Timed.course (timed : Timed s outcome) (further : Nat)
    (all : n + further + 1 = s.maxAttempts.1) (unsettled : ∀ i < n, ¬Settled s (outcome i)) :
    ∃ pauses, Course s outcome n pauses := by
  induction further generalizing n with
  | zero =>
    by_cases settled : Settled s (outcome n)
    · exact ⟨[], .settled (by omega) settled⟩
    have still := Nat.forall_lt_succ_right.mpr ⟨unsettled, settled⟩
    obtain ⟨pause, failed⟩ := timed.failed (n := n) (by omega) fun i le => still i (by omega)
    exact ⟨[], .exhausted (by omega) failed⟩
  | succ further ih =>
    by_cases settled : Settled s (outcome n)
    · exact ⟨[], .settled (by omega) settled⟩
    have still := Nat.forall_lt_succ_right.mpr ⟨unsettled, settled⟩
    obtain ⟨pause, failed⟩ := timed.failed (n := n) (by omega) fun i le => still i (by omega)
    obtain ⟨pauses, rest⟩ := ih (n := n + 1) (by omega) still
    exact ⟨pause :: pauses, .again (by omega) failed rest⟩

theorem Course.failed (h : Course s outcome n pauses) {i : Nat} (before : i < pauses.length) :
    Failed s outcome (n + i) pauses[i] := by
  induction h generalizing i with
  | settled => cases before
  | exhausted => cases before
  | again _ failed _ ih =>
    cases i with
    | zero => exact failed
    | succ i => simpa [Nat.add_assoc, Nat.add_comm 1 i] using ih (i := i) (by simpa using before)

/-- A course ends with an outcome that is settled, or with the last attempt. -/
theorem Course.ends (h : Course s outcome n pauses) :
    n + pauses.length < s.maxAttempts.1 ∧ (Settled s (outcome (n + pauses.length)) ∨
      n + pauses.length + 1 = s.maxAttempts.1) := by
  induction h with
  | settled within settled => exact ⟨within, .inl settled⟩
  | exhausted last _ => exact ⟨Nat.lt_of_succ_le (Nat.le_of_eq last), .inr last⟩
  | @again n _ pauses _ _ _ ih =>
    have shift : n + (pauses.length + 1) = n + 1 + pauses.length := by omega
    simpa only [List.length_cons, shift] using ih

theorem Course.attempts (h : Course s outcome 0 pauses) :
    ((pauses.length + 1 : Nat) : ℕ∞) = min (settledAt s outcome) s.maxAttempts.1 := by
  obtain ⟨within, ends⟩ := h.ends
  rw [Nat.zero_add] at within ends
  have late : ∀ n, Settled s (outcome n) → pauses.length ≤ n := by
    intro n settled
    by_contra early
    have failed := h.failed (Nat.lt_of_not_le early)
    rw [Nat.zero_add] at failed
    exact failed.unsettled settled
  apply le_antisymm
  · apply le_min
    · apply le_iInf
      intro n
      exact_mod_cast Nat.succ_le_succ (late n.1 n.2)
    · exact_mod_cast within
  · rcases ends with settled | last
    · exact min_le_of_left_le (iInf_le (fun n : {n // Settled s (outcome n)} =>
        ((n + 1 : Nat) : ℕ∞)) ⟨_, settled⟩)
    · exact min_le_of_right_le (by rw [last])

/- Running along a course -/

section

variable {σ : Type}

def ended : Except Fault α → σ → EStateM.Result Fault σ α
  | .ok a, st => .ok a st
  | .error f, st => .error f st

/-- The states of a call are known by the pauses so far: `ready` before the next attempt and
`called` after it. -/
structure Staged (s : Settings.Attempts) (outcome : Nat → Except Fault α)
    (pause : Nat → Fault → Binary64 → σ → σ) (action : EStateM Fault σ α)
    (ready called : List (Fault × Binary64) → σ) : Prop where
  answers (ps : List (Fault × Binary64)) : action (ready ps) = ended (outcome ps.length) (called ps)
  pauses (ps : List (Fault × Binary64)) (p : Fault × Binary64) :
    pause (ps.length + 1) p.1 p.2 (called ps) = ready (ps ++ [p])

variable {pause : Nat → Fault → Binary64 → σ → σ} {action : EStateM Fault σ α}
  {ready called : List (Fault × Binary64) → σ}

theorem continueFrom_settled {st st' : σ} {o : Except Fault α} (further attempt : Nat)
    (answer : action st = ended o st') (settled : Settled s o) :
    continueFrom s pause action further attempt st = ended o st' := by
  rw [continueFrom.eq_def]
  dsimp only
  rw [answer]
  cases o with
  | ok a => rfl
  | error f => simp [ended, show mayRetry s f = false from settled]

theorem continueFrom_failed {st st' : σ} {p : Fault × Binary64} (further : Nat)
    (failed : Failed s outcome n p) (answer : action st = ended (outcome n) st') :
    continueFrom s pause action further (n + 1) st =
      match further with
      | 0 => ended (outcome n) st'
      | further + 1 => continueFrom s pause action further (n + 2) (pause (n + 1) p.1 p.2 st') := by
  obtain ⟨result, retried, wait⟩ := failed
  rw [continueFrom.eq_def]
  dsimp only
  rw [answer, result]
  cases further <;> simp only [ended, retried, wait, if_true]

theorem Course.continues (staged : Staged s outcome pause action ready called)
    (h : Course s outcome n pauses) {before : List (Fault × Binary64)} {further : Nat}
    (made : before.length = n) (all : n + further + 1 = s.maxAttempts.1) :
    continueFrom s pause action further (n + 1) (ready before) =
      ended (outcome (n + pauses.length)) (called (before ++ pauses)) := by
  have answer := staged.answers before
  rw [made] at answer
  induction h generalizing before further with
  | settled _ settled => simpa using continueFrom_settled further _ answer settled
  | exhausted last failed =>
    obtain rfl : further = 0 := by omega
    simpa using continueFrom_failed 0 failed answer
  | @again n p pauses less failed _ ih =>
    obtain ⟨further, rfl⟩ := Nat.exists_eq_add_one_of_ne_zero (n := further) (by omega)
    have longer : (before ++ [p]).length = n + 1 := by simp [made]
    have shift : n + (pauses.length + 1) = n + 1 + pauses.length := by omega
    rw [continueFrom_failed _ failed answer]
    dsimp only
    rw [← made, staged.pauses, made, ih longer (by omega) (longer ▸ staged.answers _)]
    simp [shift]

theorem Course.runs (staged : Staged s outcome pause action ready called)
    (h : Course s outcome 0 pauses) :
    run s pause action (ready []) = ended (outcome pauses.length) (called pauses) := by
  have positive : 0 < s.maxAttempts.1 := s.maxAttempts.2
  have all : 0 + (s.maxAttempts.1 - 1) + 1 = s.maxAttempts.1 := by omega
  have made : ([] : List (Fault × Binary64)).length = 0 := rfl
  simpa [run] using h.continues staged made all

end

namespace Playback

def paused (s : Settings.Attempts) (pauses : List (Fault × Binary64)) : List Happening :=
  (pauses.mapIdx fun i p => [.called, .noted (warning s (i + 1) p.1 p.2), .waited p.2]).flatten

theorem paused_concat (s : Settings.Attempts) (pauses : List (Fault × Binary64))
    (p : Fault × Binary64) :
    paused s (pauses ++ [p]) = paused s pauses ++
      [.called, .noted (warning s (pauses.length + 1) p.1 p.2), .waited p.2] := by
  simp [paused, List.mapIdx_append]

theorem pause_paused (s : Settings.Attempts) (script : List (Except Fault α))
    (pauses : List (Fault × Binary64)) (p : Fault × Binary64) :
    pause s (pauses.length + 1) p.1 p.2 { script, happenings := paused s pauses ++ [.called] } =
      { script, happenings := paused s (pauses ++ [p]) } := by
  simp [pause, paused_concat]

def heard (script : List (Except Fault α)) (n : Nat) : Except Fault α :=
  script.getD (min n (script.length - 1)) (.error (.broken "the script is empty"))

theorem next_staged (s : Settings.Attempts) {script : List (Except Fault α)}
    (nonempty : script ≠ []) :
    Staged s (heard script) (pause s) next
      (fun ps => {
        script := script.drop (min ps.length (script.length - 1)), happenings := paused s ps })
      fun ps => {
        script := script.drop (min (ps.length + 1) (script.length - 1))
        happenings := paused s ps ++ [.called] } where
  answers ps := by
    have long : 0 < script.length := List.length_pos_iff.mpr nonempty
    have least : min ps.length (script.length - 1) < script.length := by omega
    unfold next heard
    dsimp only
    rw [List.drop_eq_getElem_cons least, List.getD_eq_getElem?_getD, List.getElem?_eq_getElem least]
    -- The last entry of a script is kept, for the calls after it.
    by_cases last : ps.length < script.length - 1
    · have more : min (ps.length + 1) (script.length - 1) =
          min ps.length (script.length - 1) + 1 := by omega
      have rest : (script.drop (min ps.length (script.length - 1) + 1)).isEmpty = false := by
        simp only [List.isEmpty_eq_false_iff, ne_eq, List.drop_eq_nil_iff]
        omega
      simp only [rest, more]
      cases script[min ps.length (script.length - 1)] <;> rfl
    · have same : min (ps.length + 1) (script.length - 1) =
          min ps.length (script.length - 1) := by omega
      have rest : (script.drop (min ps.length (script.length - 1) + 1)).isEmpty = true := by
        simp only [List.isEmpty_iff, List.drop_eq_nil_iff]
        omega
      simp only [rest, same, List.drop_eq_getElem_cons least]
      cases script[min ps.length (script.length - 1)] <;> rfl
  pauses ps p := by rw [List.length_append, List.length_singleton, pause_paused]

end Playback

section

open Playback

theorem Timed.started (timed : Timed s outcome) : ∃ pauses, Course s outcome 0 pauses :=
  have positive : 0 < s.maxAttempts.1 := s.maxAttempts.2
  timed.course (s.maxAttempts.1 - 1) (by omega) fun i early => absurd early (Nat.not_lt_zero i)

theorem play_follows_script {script : List (Except Fault α)} (nonempty : script ≠ [])
    (timed : Timed s (heard script)) :
    ∃ pauses left, Course s (heard script) 0 pauses ∧
      play s script = ended (heard script pauses.length)
        { script := left, happenings := paused s pauses ++ [.called] } := by
  obtain ⟨pauses, course⟩ := timed.started
  have played := course.runs (next_staged s nonempty)
  rw [List.length_nil, Nat.zero_min, List.drop_zero] at played
  exact ⟨pauses, _, course, played⟩

end

end Attempts
end Stockroom
