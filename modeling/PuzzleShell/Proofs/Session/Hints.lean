import PuzzleShell.Proofs.Session.Attempt

/-!
# Counting hints

A hint can be asked for by a step of its own or by a line, and one counter serves both. Within an
attempt it is the number of the requests, up to the limit: so the requests are answered with the
hints in order, each once, and after the last of them every answer is that there is none left.
-/

namespace PuzzleShell

theorem Mission.hintLimit_le_length (m : Mission) : m.hintLimit ≤ m.hints.length := by
  unfold hintLimit
  split
  · exact le_rfl
  · exact min_le_right _ _

namespace Step

/-- Both ways to ask for a hint. -/
def asksHint : Step → Bool
  | .run line _ => Text.strip line == "hint"
  | .hint => true
  | _ => false

def reply (line : Line) : Step → Answer
  | .run .. => .outcome { lines := [line] }
  | _ => .hint line

end Step

namespace Session

/-- A request for a hint that does not fail. -/
def Event.asksHint (e : Event) : Bool := e.step.asksHint && !e.answer.isFailure

variable {s : Session}

theorem exists_hintAt {n : Nat} (h : n < s.hintLimit) : ∃ hint, s.hintAt? n = some hint := by
  cases hm : s.mission with
  | none =>
    rw [hintLimit, hm] at h
    exact absurd h (Nat.not_lt_zero n)
  | some m =>
    rw [hintLimit, hm] at h
    rw [hintAt?, hm]
    exact ⟨_, List.getElem?_eq_getElem (h.trans_le m.hintLimit_le_length)⟩

theorem hintLine_eq {hint : String} (h : s.hintAt? s.hintsUsed = some hint) :
    s.hintLine = .info s!"Hint {s.hintsUsed + 1}/{s.hintLimit}: {hint}" := by
  unfold hintLine
  rw [h]
  rfl

theorem step_of_asksHint {x : Step} (hx : x.asksHint = true)
    (hok : (s.step x).1.isFailure = false) :
    (s.step x).1 = x.reply s.giveHint.1 ∧ (s.step x).2.hintsUsed = s.giveHint.2.hintsUsed := by
  cases x with
  | run line now =>
    have hline : Text.strip line = "hint" := beq_iff_eq.1 hx
    cases hp : s.prompt with
    | error e =>
      rw [step_run_of_error hp] at hok
      cases hok
    | ok text =>
      rw [step_run_of_prompt hp, hintsUsed_afterLine, hline, outcomeOf_hint]
      exact ⟨rfl, rfl⟩
  | hint => exact ⟨rfl, rfl⟩
  | save | close | complete | prompt | restart => cases hx

/-- Any other step leaves the counter alone, and so does a request that fails. -/
theorem hintsUsed_step {x : Step} (hx : x ≠ .restart)
    (h : x.asksHint = false ∨ (s.step x).1.isFailure = true) :
    (s.step x).2.hintsUsed = s.hintsUsed := by
  rcases h with hasks | hfails
  · cases x with
    | run line now =>
      have hline : Text.strip line ≠ "hint" := by simpa [Step.asksHint] using hasks
      cases hp : s.prompt with
      | error e => rw [step_run_of_error hp]
      | ok text => rw [step_run_of_prompt hp, hintsUsed_afterLine, outcomeOf_of_ne hline]
    | hint => cases hasks
    | prompt => rw [step_prompt]
    | restart => exact absurd rfl hx
    | save | close | complete => rfl
  · rw [step_of_isFailure hfails]

theorem hintLimit_step (x : Step) : (s.step x).2.hintLimit = s.hintLimit := by
  unfold hintLimit
  rw [setup_step]

theorem hintsUsed_le_step {x : Step} (hx : x ≠ .restart) :
    s.hintsUsed ≤ (s.step x).2.hintsUsed := by
  by_cases h : x.asksHint = true ∧ (s.step x).1.isFailure = false
  · rw [(step_of_asksHint h.1 h.2).2]
    by_cases hlt : s.hintsUsed < s.hintLimit
    · rw [giveHint_of_lt hlt]
      exact Nat.le_succ _
    · rw [giveHint_of_not_lt hlt]
  · rw [hintsUsed_step hx (by simpa [or_iff_not_imp_left] using h)]

def asked (s : Session) (xs : List Step) : Nat := (s.attempt xs).countP Event.asksHint

theorem hintsUsed_eq_min (hfresh : s.hintsUsed = 0) (xs : List Step) :
    (s.steps xs).2.hintsUsed = min (s.asked xs) (s.steps xs).2.hintLimit := by
  refine attempt_invariant (P := fun es t =>
    t.hintsUsed = min (es.countP Event.asksHint) t.hintLimit) ?_ ?_ ?_ xs
  · exact hfresh.trans (Nat.zero_min _).symm
  · exact fun t => (Nat.zero_min _).symm
  · intro es t x hx h
    rw [List.countP_append, List.countP_singleton, hintLimit_step]
    by_cases hasks : Event.asksHint ⟨t, x⟩ = true
    · obtain ⟨hrequest, hok⟩ := Bool.and_eq_true_iff.1 hasks
      rw [if_pos hasks, (step_of_asksHint hrequest (Bool.not_eq_true' _ ▸ hok)).2]
      by_cases hlt : t.hintsUsed < t.hintLimit
      · rw [giveHint_of_lt hlt]
        dsimp only
        omega
      · rw [giveHint_of_not_lt hlt]
        dsimp only
        omega
    · rw [if_neg hasks, hintsUsed_step hx, h, Nat.add_zero]
      simpa [Event.asksHint, Event.answer, or_iff_not_imp_left] using hasks

/-- Where the counter stands after the steps `xs`, and what the next step makes of it. -/
structure CountsHints (s : Session) (xs : List Step) : Prop where
  used : (s.steps xs).2.hintsUsed = min (s.asked xs) s.hintLimit
  given : ∀ x : Step, x.asksHint = true → ((s.steps xs).2.step x).1.isFailure = false →
    s.asked xs < s.hintLimit → ∃ hint, s.hintAt? (s.asked xs) = some hint ∧
      ((s.steps xs).2.step x).1 =
        x.reply (.info s!"Hint {s.asked xs + 1}/{s.hintLimit}: {hint}") ∧
      ((s.steps xs).2.step x).2.hintsUsed = s.asked xs + 1
  refused : ∀ x : Step, x.asksHint = true → ((s.steps xs).2.step x).1.isFailure = false →
    s.hintLimit ≤ s.asked xs →
      ((s.steps xs).2.step x).1 = x.reply (.info "No more hints available.") ∧
      ((s.steps xs).2.step x).2.hintsUsed = (s.steps xs).2.hintsUsed
  kept : ∀ x : Step, x ≠ .restart →
    x.asksHint = false ∨ ((s.steps xs).2.step x).1.isFailure = true →
      ((s.steps xs).2.step x).2.hintsUsed = (s.steps xs).2.hintsUsed
  grows : ∀ ys, .restart ∉ ys →
    (s.steps xs).2.hintsUsed ≤ ((s.steps xs).2.steps ys).2.hintsUsed

/-- However hints are asked for, and whatever happens in between, the requests of an attempt are
answered with the hints one after the other; once the limit is reached they are refused, and the
counter stays where it is until the next restart. -/
theorem countsHints_start (mission : Option Mission) (config : Config) (objects : Prompt.Objects)
    (xs : List Step) : (start mission config objects).CountsHints xs := by
  have hfresh : (start mission config objects).hintsUsed = 0 := rfl
  generalize start mission config objects = s at hfresh ⊢
  have hsetup : (s.steps xs).2.toSetup = s.toSetup := setup_steps s xs
  have hlimit : (s.steps xs).2.hintLimit = s.hintLimit := by rw [hintLimit, hintLimit, hsetup]
  have hat (n : Nat) : (s.steps xs).2.hintAt? n = s.hintAt? n := by
    rw [hintAt?, hintAt?, hsetup]
  have hused : (s.steps xs).2.hintsUsed = min (s.asked xs) s.hintLimit := by
    rw [← hlimit]
    exact hintsUsed_eq_min hfresh xs
  refine ⟨hused, fun x hx hok hlt => ?_, fun x hx hok hle => ?_, fun x => hintsUsed_step,
    fun ys => ?_⟩
  · obtain ⟨hanswer, hcount⟩ := step_of_asksHint hx hok
    have hnext : (s.steps xs).2.hintsUsed = s.asked xs := by omega
    obtain ⟨hint, hhint⟩ := exists_hintAt hlt
    have hleft : (s.steps xs).2.hintsUsed < (s.steps xs).2.hintLimit := by omega
    have hfound : (s.steps xs).2.hintAt? (s.steps xs).2.hintsUsed = some hint := by
      rw [hat, hnext, hhint]
    rw [hanswer, hcount, giveHint_of_lt hleft, hintLine_eq hfound, hnext, hlimit]
    exact ⟨hint, hhint, rfl, rfl⟩
  · obtain ⟨hanswer, hcount⟩ := step_of_asksHint hx hok
    have hnone : ¬ (s.steps xs).2.hintsUsed < (s.steps xs).2.hintLimit := by omega
    rw [hanswer, hcount, giveHint_of_not_lt hnone]
    exact ⟨rfl, rfl⟩
  · exact steps_preserve_of_notMem (P := fun u => (s.steps xs).2.hintsUsed ≤ u.hintsUsed)
      (fun u x hx h => h.trans (hintsUsed_le_step hx)) le_rfl

/-- A restart brings all hints back; two of the three may be given. -/
theorem countsHints_start_capped :
    let s := start (some { hints := ["a", "b", "c"], maxHints := some 2 }) {}
      .small
    let xs : List Step := [.hint, .run "hint", .restart, .run "hint me", .run " hint ", .prompt]
    (s.steps xs).2.hintsUsed = 1 ∧
    ((s.steps xs).2.step .hint).1 = .hint (.info "Hint 2/2: b") ∧
    ((s.steps (xs ++ [.hint])).2.step (.run "hint")).1 =
      .outcome { lines := [.info "No more hints available."] } := by
  intro s xs
  have hone : s.asked xs = 1 := by decide +kernel
  have htwo : s.asked (xs ++ [.hint]) = 2 := by decide +kernel
  have hlimit : s.hintLimit = 2 := rfl
  have hat : s.hintAt? 1 = some "b" := rfl
  have hok : ((s.steps (xs ++ [.hint])).2.step (.run "hint")).1.isFailure = false := by
    decide +kernel
  have hrun (ys : List Step) : s.CountsHints ys := countsHints_start _ _ _ ys
  clear_value s xs
  obtain ⟨hint, hhint, hanswer, -⟩ := (hrun xs).given .hint rfl rfl (by omega)
  rw [hone] at hhint hanswer
  cases hat.symm.trans hhint
  rw [hlimit] at hanswer
  refine ⟨?_, hanswer, ((hrun _).refused (.run "hint") rfl hok (by omega)).1⟩
  rw [(hrun xs).used, hone, hlimit]
  rfl

end Session

end PuzzleShell
