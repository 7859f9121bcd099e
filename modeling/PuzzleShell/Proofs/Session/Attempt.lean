import Mathlib.Data.List.DropRight
import PuzzleShell.Proofs.Session.Steps

/-!
# Attempts

The events of a run are its steps, each with the session in which it is taken. Those since the last
restart make up the attempt. An invariant between an attempt and the session after it has to hold of
a session with nothing behind it and to be kept by every step but a restart.
-/

namespace PuzzleShell

/-- Only a prompt that cannot be rendered fails a step. -/
def Answer.isFailure : Answer → Bool
  | .failed _ => true
  | _ => false

namespace Session

structure Event where
  session : Session
  step : Step

namespace Event

def answer (e : Event) : Answer := (e.session.step e.step).1

def after (e : Event) : Session := (e.session.step e.step).2

end Event

def events (s : Session) : List Step → List Event
  | [] => []
  | x :: rest => ⟨s, x⟩ :: (s.step x).2.events rest

/-- The events since the last restart. -/
def attempt (s : Session) (xs : List Step) : List Event :=
  (s.events xs).rtakeWhile (·.step != .restart)

theorem step_of_isFailure {s : Session} {x : Step} (h : (s.step x).1.isFailure = true) :
    (s.step x).2 = s := by
  cases x with
  | run line now =>
    cases hp : s.prompt with
    | error e => rw [step_run_of_error hp]
    | ok text =>
      rw [step_run_of_prompt hp] at h
      cases h
  | prompt => exact s.step_prompt
  | save | close | hint | complete | restart => cases h

theorem steps_append (s : Session) (xs ys : List Step) : s.steps (xs ++ ys) =
    ((s.steps xs).1 ++ ((s.steps xs).2.steps ys).1, ((s.steps xs).2.steps ys).2) := by
  induction xs generalizing s with
  | nil => rfl
  | cons x xs ih => rw [List.cons_append, steps_cons, ih, steps_cons, List.cons_append]

theorem events_append (s : Session) (xs ys : List Step) :
    s.events (xs ++ ys) = s.events xs ++ (s.steps xs).2.events ys := by
  induction xs generalizing s with
  | nil => rfl
  | cons x xs ih => rw [List.cons_append, events, ih, steps_cons, events, List.cons_append]

theorem steps_concat (s : Session) (xs : List Step) (x : Step) :
    (s.steps (xs ++ [x])).2 = ((s.steps xs).2.step x).2 := by
  rw [steps_append]
  rfl

theorem attempt_concat_restart (s : Session) (xs : List Step) :
    s.attempt (xs ++ [.restart]) = [] := by
  rw [attempt, events_append]
  exact List.rtakeWhile_concat_neg _ _ _ (by simp)

theorem attempt_concat (s : Session) (xs : List Step) {x : Step} (hx : x ≠ .restart) :
    s.attempt (xs ++ [x]) = s.attempt xs ++ [⟨(s.steps xs).2, x⟩] := by
  rw [attempt, events_append]
  exact List.rtakeWhile_concat_pos _ _ _ (bne_iff_ne.2 hx)

theorem setup_steps (s : Session) (xs : List Step) : (s.steps xs).2.toSetup = s.toSetup :=
  steps_preserve (P := fun t => t.toSetup = s.toSetup)
    (fun t x h => (setup_step t x).trans h) rfl xs

theorem setup_of_mem_attempt {s : Session} {xs : List Step} {e : Event}
    (h : e ∈ s.attempt xs) : e.session.toSetup = s.toSetup := by
  replace h : e ∈ s.events xs := (List.rtakeWhile_suffix _ _).subset h
  induction xs generalizing s with
  | nil => cases h
  | cons x xs ih =>
    rcases List.mem_cons.1 h with rfl | h
    · rfl
    · exact (ih h).trans (setup_step s x)

/-- What holds with nothing behind and is kept by every step but a restart holds of every attempt
and the session after it. -/
theorem attempt_invariant {P : List Event → Session → Prop} {s : Session} (hstart : P [] s)
    (hrestart : ∀ t : Session, P [] t.restart)
    (hstep : ∀ es t x, x ≠ .restart → P es t → P (es ++ [⟨t, x⟩]) (t.step x).2)
    (xs : List Step) : P (s.attempt xs) (s.steps xs).2 := by
  induction xs using List.reverseRecOn with
  | nil => exact hstart
  | append_singleton xs x ih =>
    rw [steps_concat]
    by_cases hx : x = .restart
    · rw [hx, attempt_concat_restart]
      exact hrestart _
    · rw [attempt_concat s xs hx]
      exact hstep _ _ x hx ih

theorem steps_preserve_of_notMem {P : Session → Prop}
    (hstep : ∀ s x, x ≠ .restart → P s → P (s.step x).2) {s : Session} (h : P s)
    {xs : List Step} (hxs : .restart ∉ xs) : P (s.steps xs).2 := by
  induction xs generalizing s with
  | nil => exact h
  | cons x xs ih =>
    obtain ⟨hx, hxs⟩ := List.ne_and_not_mem_of_not_mem_cons hxs
    exact ih (hstep s x (Ne.symm hx) h) hxs

end Session

end PuzzleShell
