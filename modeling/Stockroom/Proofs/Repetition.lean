import Stockroom.Proofs.Abreast
import Stockroom.Proofs.Likeness
import Stockroom.Proofs.Runs

namespace Stockroom

open Service (Kept final)

/-- States that differ at most in their journals. -/
def World.SameButJournal (w v : World) : Prop := ∃ journal, v = { w with journal }

namespace World.SameButJournal

variable {u v w : World}

theorem refl (w : World) : w.SameButJournal w := ⟨w.journal, rfl⟩

theorem trans (first : u.SameButJournal v) (second : v.SameButJournal w) : u.SameButJournal w := by
  obtain ⟨_, rfl⟩ := first
  obtain ⟨journal, rfl⟩ := second
  exact ⟨journal, rfl⟩

end World.SameButJournal

namespace Service

variable {α γ : Type} {R : World → World → Prop} {x : Service α} {w v : World}

/- Steps that do not read the journal -/

theorem disruption_unread (absent : γ) (read : Disruptions → List γ)
    (write : Disruptions → List γ → Disruptions) :
    (disruption absent read write).Matches World.SameButJournal (disruption absent read write) := by
  rintro w _ ⟨journal, rfl⟩
  exact ⟨rfl, journal, rfl⟩

theorem turn_unread : turn.Matches World.SameButJournal turn := by
  have free : unlocked.Matches World.SameButJournal unlocked := by
    rintro w _ ⟨journal, rfl⟩
    change EndsAlike _
      ((if w.disruptions.tablesLocked then throw (.refused .locked) else pure () : Service Unit) w)
      ((if w.disruptions.tablesLocked then throw (.refused .locked) else pure () : Service Unit)
        { w with journal })
    split
    · exact ⟨rfl, journal, rfl⟩
    · exact ⟨rfl, journal, rfl⟩
  exact free.bind fun _ => (disruption_unread _ _ _).bind refuse_matches

theorem now_unread : now.Matches World.SameButJournal now := by
  rintro w _ ⟨journal, rfl⟩
  cases ticks : w.disruptions.ticks with
  | nil =>
    have ticks' : { w with journal }.disruptions.ticks = [] := ticks
    rw [now_idle ticks, now_idle ticks']
    exact ⟨rfl, journal, rfl⟩
  | cons m rest =>
    have ticks' : { w with journal }.disruptions.ticks = m :: rest := ticks
    rw [now_ticks ticks, now_ticks ticks']
    exact ⟨rfl, journal, rfl⟩

instance : Kept World.SameButJournal where
  tables same := by
    obtain ⟨_, rfl⟩ := same
    rfl
  store _ same := by
    obtain ⟨journal, rfl⟩ := same
    exact ⟨journal, rfl⟩
  write _ k same := by
    obtain ⟨_, rfl⟩ := same
    exact ⟨k, rfl⟩
  wait _ same := by
    obtain ⟨journal, rfl⟩ := same
    exact ⟨journal, rfl⟩
  evict _ same := by
    obtain ⟨journal, rfl⟩ := same
    exact ⟨journal, rfl⟩
  now := now_unread
  turn := turn_unread
  rowLock := disruption_unread _ _ _
  steal := disruption_unread _ _ _
  expiry _ := by
    rintro w _ ⟨journal, rfl⟩
    exact ⟨rfl, journal, rfl⟩

theorem Matches.final (h : x.Matches R x) (related : R w v) : R (final x w) (final x v) := by
  have ends := h w v related
  unfold Service.final
  cases left : x w <;> cases right : x v <;> rw [left, right] at ends
  · exact ends.2
  · exact ends.elim
  · exact ends.elim
  · exact ends.2

theorem Matches.iterate (h : x.Matches R x) (n : Nat) (related : R w v) :
    R ((Service.final x)^[n] w) ((Service.final x)^[n] v) := by
  induction n generalizing w v with
  | zero => exact related
  | succ n ih => exact ih (h.final related)

/- Turns -/

def sweepsIn (turns : List Turn) : Nat := turns.countP (!·.fails)

theorem sweepTurn_ends (s : Settings) (turn : Turn) (w : World) :
    ∃ count v, sweepTurn s turn w = .ok count v ∧
      ((Service.final (sweep s))^[sweepsIn [turn]] w).SameButJournal v := by
  obtain ⟨fails, stops⟩ := turn
  cases fails with
  | true => exact ⟨none, _, rfl, _, rfl⟩
  | false =>
    have tried : outcome (if (Turn.mk false stops).fails then throw (.broken "boom") else sweep s)
        w = .ok (result (sweep s) w) (Service.final (sweep s) w) := outcome_eq (sweep s) w
    unfold sweepTurn
    rw [bind_of_run tried]
    cases result (sweep s) w with
    | ok count => exact ⟨some count, _, rfl, .refl _⟩
    | error f => exact ⟨none, _, rfl, _, rfl⟩

theorem sweepTurns_asked (s : Settings) (turns : List Turn) :
    sweepTurns s true turns = pure [] := by
  cases turns <;> rfl

/-- Turns end with the first that is asked to stop. -/
theorem sweepTurns_ends (s : Settings) {turns : List Turn} (asks : ∃ turn ∈ turns, turn.stops)
    (w : World) :
    ∃ before last rest made v, turns = before ++ last :: rest ∧
      (∀ turn ∈ before, ¬turn.stops) ∧ last.stops ∧
      sweepTurns s false turns w = .ok made v ∧ made.map (·.1) = before ++ [last] ∧
      ((Service.final (sweep s))^[sweepsIn (before ++ [last])] w).SameButJournal v := by
  induction turns generalizing w with
  | nil => simp at asks
  | cons turn turns ih =>
    obtain ⟨count, u, made, swept⟩ := sweepTurn_ends s turn w
    by_cases stops : turn.stops
    · refine ⟨[], turn, turns, [(turn, count)], u, rfl, nofun, stops, ?_, rfl, swept⟩
      rw [sweepTurns, bind_of_run made, stops, sweepTurns_asked]
      rfl
    · have later : ∃ turn ∈ turns, turn.stops := by simpa [stops] using asks
      obtain ⟨before, last, rest, more, v, rfl, going, asked, ran, names, left⟩ := ih later u
      refine ⟨turn :: before, last, rest, (turn, count) :: more, v, rfl, ?_, asked, ?_, ?_, ?_⟩
      · exact List.forall_mem_cons.mpr ⟨stops, going⟩
      · have continued : turn.stops = false := by simpa using stops
        rw [sweepTurns, bind_of_run made, continued, bind_of_run ran]
        rfl
      · rw [List.map_cons, names]
        rfl
      · have first := (sweep_matches s).iterate (sweepsIn (before ++ [last])) swept
        rw [← Function.iterate_add_apply] at first
        have count : sweepsIn (turn :: before ++ [last]) =
            sweepsIn (before ++ [last]) + sweepsIn [turn] := by
          simp only [sweepsIn, List.cons_append, List.countP_cons, List.countP_nil]
          omega
        rw [count]
        exact first.trans left

end Service

/-- If the service is asked to shut down before the first turn, there is none. Else the turns are
made in order up to the first during which it is asked, whether or not that or any before it
fails. In the end, but for the journal, everything is as it is after as many sweeps in a row as
there were turns that did not fail before their sweep. -/
theorem sweeps_until_asked (s : Settings) (w : World) :
    (∀ turns, ∃ v, Service.sweepUntil s true turns w = .ok [] v ∧ w.SameButJournal v) ∧
    ∀ turns : List Service.Turn, (∃ turn ∈ turns, turn.stops) →
      ∃ before last rest made v, turns = before ++ last :: rest ∧
        (∀ turn ∈ before, ¬turn.stops) ∧ last.stops ∧
        Service.sweepUntil s false turns w = .ok made v ∧ made.map (·.1) = before ++ [last] ∧
        ((final (Service.sweep s))^[Service.sweepsIn (before ++ [last])] w).SameButJournal v := by
  constructor
  · intro turns
    unfold Service.sweepUntil
    rw [Service.sweepTurns_asked]
    exact ⟨_, rfl, _, rfl⟩
  · intro turns asks
    obtain ⟨u, noted, started⟩ : ∃ u, Service.note .expiry .info
        ("Expiration sweeper started, interval " ++ s.expiry.intervalSeconds.toText ++ "s") w =
          .ok () u ∧ w.SameButJournal u := ⟨_, rfl, _, rfl⟩
    obtain ⟨before, last, rest, made, v, shape, going, asked, ran, names, left⟩ :=
      Service.sweepTurns_ends s asks u
    have same := (Service.sweep_matches s).iterate (Service.sweepsIn (before ++ [last])) started
    have stopped : Service.sweepUntil s false turns w = .ok made { v with
        journal := v.journal ++ [⟨.expiry, .info, "Expiration sweeper stopped"⟩] } := by
      rw [Service.sweepUntil, Service.bind_of_run noted, Service.bind_of_run ran]
      rfl
    exact ⟨before, last, rest, made, _, shape, going, asked, stopped, names,
      same.trans (left.trans ⟨_, rfl⟩)⟩

def closingTurns : List Service.Turn :=
  [⟨true, false⟩, ⟨false, false⟩, ⟨true, true⟩, ⟨false, false⟩]

theorem closing_turns_sweep_once :
    let hour := World.teaOrdered.facing .hourlySweep
    let s := Event.hourlySweep.settings
    ∃ made v, Service.sweepUntil s false closingTurns hour = .ok made v ∧
      made.map (·.1) = closingTurns.take 3 ∧ (final (Service.sweep s) hour).SameButJournal v := by
  intro hour s
  obtain ⟨_, run⟩ := sweeps_until_asked s hour
  obtain ⟨before, last, rest, made, v, shape, going, asked, ran, names, left⟩ :=
    run closingTurns ⟨⟨true, true⟩, by decide, rfl⟩
  have first : before ++ [last] = closingTurns.take 3 := by
    unfold closingTurns at shape
    rcases before with _ | ⟨a, _ | ⟨b, _ | ⟨c, before⟩⟩⟩
    · cases shape
      cases asked
    · cases shape
      cases asked
    · cases shape
      rfl
    · simp only [List.cons_append, List.cons.injEq] at shape
      obtain ⟨_, _, rfl, _⟩ := shape
      exact absurd rfl (going ⟨true, true⟩ (by simp))
  rw [first] at names left
  exact ⟨made, v, ran, names, left⟩

end Stockroom
