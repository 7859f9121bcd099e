import PuzzleShell.Proofs.Completion
import PuzzleShell.Proofs.Session.Attempt
import PuzzleShell.Proofs.Session.Erasure

/-!
# Starting over

A restart makes a session what it was when it was new, so nothing that was done before can be seen
afterwards. What tells the state after the restart from all earlier ones is its number alone, and
the numbers themselves do not matter: a completer only compares the number of the state for which
it made its last suggestion with that of the present one.
-/

namespace PuzzleShell

open Completion (Cycle)

namespace Session

structure View where
  answer : Answer
  state : State
  hintsUsed : Nat
  completed : Bool

def Event.view (e : Event) : View where
  answer := e.answer
  state := e.after.state
  hintsUsed := e.after.hintsUsed
  completed := e.after.completed

def watch (s : Session) (xs : List Step) : List View := (s.events xs).map Event.view

theorem watch_cons (s : Session) (x : Step) (xs : List Step) :
    s.watch (x :: xs) = Event.view ⟨s, x⟩ :: (s.step x).2.watch xs := rfl

theorem watch_append (s : Session) (xs ys : List Step) :
    s.watch (xs ++ ys) = s.watch xs ++ (s.steps xs).2.watch ys := by
  rw [watch, events_append, List.map_append]
  rfl

section Numbers

variable {s t : Session}

/-- The last suggestion, and whether it was made for the present state. -/
def recalls (s : Session) : Option (Cycle × Bool) :=
  s.memory.map fun c => ({ c with mark := 0 }, c.mark == s.revision)

/-- No suggestion was made for a state that is still to come. -/
def MarksPast (s : Session) : Prop := ∀ c ∈ s.memory, c.mark ≤ s.revision

/-- The suggestion that follows on `r`, by which a completer has to go. -/
def resume (state : State) (line : String) (r : Option (Cycle × Bool)) : Option (Cycle × Bool) :=
  match r with
  | some (c, true) =>
    if line = c.suggestion then some (c.next, true)
    else (Cycle.start? state 0 line).map fun d => (d, true)
  | _ => (Cycle.start? state 0 line).map fun d => (d, true)

theorem suggestion?_memory (s : Session) :
    Completion.suggestion? s.memory = s.recalls.map fun r => r.1.suggestion := by
  cases hm : s.memory <;> simp [recalls, hm, Completion.suggestion?, Cycle.suggestion]

theorem start?_mark (state : State) (mark : Nat) (line : String) :
    (Cycle.start? state mark line).map (fun c => ({ c with mark := 0 }, c.mark == mark)) =
      (Cycle.start? state 0 line).map fun d => (d, true) := by
  unfold Cycle.start?
  dsimp only
  split <;> simp

theorem memory_complete_of_match {c : Cycle} (hm : s.memory = some c) (hmark : c.mark = s.revision) :
    (s.complete c.suggestion).memory = some c.next := by
  change Completion.complete s.state s.revision c.suggestion s.memory = _
  rw [hm]
  exact if_pos ⟨rfl, hmark.symm⟩

theorem memory_complete_of_fresh {line : String}
    (h : ∀ c ∈ s.memory, line = c.suggestion → c.mark ≠ s.revision) :
    (s.complete line).memory = Cycle.start? s.state s.revision line := by
  change Completion.complete s.state s.revision line s.memory = _
  cases hm : s.memory with
  | none => rfl
  | some c => exact if_neg fun hmatch => h c hm hmatch.1 hmatch.2.symm

/-- Completing a line goes by nothing else than this. -/
theorem recalls_complete (s : Session) (line : String) :
    (s.complete line).recalls = resume s.state line s.recalls := by
  have hfresh (h : ∀ c ∈ s.memory, line = c.suggestion → c.mark ≠ s.revision) :
      (s.complete line).recalls = (Cycle.start? s.state 0 line).map fun d => (d, true) := by
    rw [recalls, memory_complete_of_fresh h]
    exact start?_mark s.state s.revision line
  cases hm : s.memory with
  | none =>
    have hnone : s.recalls = none := by rw [recalls, hm, Option.map_none]
    rw [hnone, hfresh fun c hc => nomatch hm.symm.trans hc]
    rfl
  | some c =>
    have hsome : s.recalls = some ({ c with mark := 0 }, c.mark == s.revision) := by
      rw [recalls, hm, Option.map_some]
    have hsame : ({ c with mark := 0 } : Cycle).suggestion = c.suggestion := rfl
    by_cases hmark : c.mark = s.revision
    · rw [hsome, beq_iff_eq.2 hmark, resume, hsame]
      by_cases hline : line = c.suggestion
      · rw [if_pos hline, hline, recalls, memory_complete_of_match hm hmark, Option.map_some]
        exact congrArg (fun b => some (({ c with mark := 0 } : Cycle).next, b))
          (beq_iff_eq.2 hmark)
      · rw [if_neg hline]
        refine hfresh fun d hd hsuggested => ?_
        cases hm.symm.trans hd
        exact absurd hsuggested hline
    · rw [hsome, beq_eq_false_iff_ne.2 hmark]
      refine hfresh fun d hd _ => ?_
      cases hm.symm.trans hd
      exact hmark

theorem recalls_moveTo (h : s.MarksPast) (state : State) :
    (s.moveTo state).recalls = s.recalls.map fun r => (r.1, false) := by
  cases hm : s.memory with
  | none => simp [recalls, moveTo, hm]
  | some c =>
    have hmark : c.mark ≤ s.revision := h c hm
    have hne : (c.mark == s.revision + 1) = false := beq_eq_false_iff_ne.2 (by omega)
    simp [recalls, moveTo, hm, hne]

theorem MarksPast.moveTo (h : s.MarksPast) (state : State) : (s.moveTo state).MarksPast :=
  fun c hc => (h c hc).trans (Nat.le_succ _)

theorem MarksPast.outcomeOf (h : s.MarksPast) (line : String) (now : Moment) :
    (s.outcomeOf line now).2.MarksPast := by
  rw [outcomeOf_eq]
  exact h

theorem mark_of_start? {state : State} {mark : Nat} {line : String} {c : Cycle}
    (h : Cycle.start? state mark line = some c) : c.mark = mark := by
  unfold Cycle.start? at h
  dsimp only at h
  split at h
  · cases h
  · cases h
    rfl

theorem MarksPast.complete (h : s.MarksPast) (line : String) : (s.complete line).MarksPast := by
  intro c hc
  change Completion.complete s.state s.revision line s.memory = some c at hc
  rcases Completion.complete_cases hc with ⟨d, hd, rfl⟩ | hstart
  · exact h d hd
  · exact (mark_of_start? hstart).le

theorem MarksPast.restart (s : Session) : s.restart.MarksPast := fun _ hc => nomatch hc

theorem MarksPast.step (h : s.MarksPast) (x : Step) : (s.step x).2.MarksPast := by
  refine step_elim h (fun text line now => (h.outcomeOf line now).moveTo _) (fun _ => h.moveTo _) ?_
    h.complete (.restart s) x
  rw [giveHint_eq]
  exact h

/-- Two sessions that differ at most in how their states are numbered. -/
structure Alike (s t : Session) : Prop where
  setup : s.toSetup = t.toSetup
  state : s.state = t.state
  hintsUsed : s.hintsUsed = t.hintsUsed
  completed : s.completed = t.completed
  recalls : s.recalls = t.recalls

namespace Alike

theorem agree (h : Alike s t) : Agree s t :=
  ⟨h.setup, congrArg State.world h.state, h.hintsUsed⟩

theorem giveHint (h : Alike s t) :
    s.giveHint.1 = t.giveHint.1 ∧ Alike s.giveHint.2 t.giveHint.2 := by
  obtain ⟨hanswer, hagree⟩ := h.agree.giveHint
  refine ⟨hanswer, ?_⟩
  have hused : s.giveHint.2.hintsUsed = t.giveHint.2.hintsUsed := hagree.hintsUsed
  rw [giveHint_eq s, giveHint_eq t]
  exact ⟨h.setup, h.state, hused, h.completed, h.recalls⟩

theorem outcomeOf (h : Alike s t) (line : String) (now : Moment) :
    (s.outcomeOf line now).1 = (t.outcomeOf line now).1 ∧
      Alike (s.outcomeOf line now).2 (t.outcomeOf line now).2 := by
  by_cases hline : line = "hint"
  · obtain ⟨hanswer, halike⟩ := h.giveHint
    rw [hline, outcomeOf_hint, outcomeOf_hint, hanswer]
    exact ⟨rfl, halike⟩
  · rw [outcomeOf_of_ne hline, outcomeOf_of_ne hline, h.setup, h.state]
    exact ⟨rfl, h⟩

variable (hs : s.MarksPast) (ht : t.MarksPast)
include hs ht

theorem moveTo (h : Alike s t) (state : State) : Alike (s.moveTo state) (t.moveTo state) where
  setup := h.setup
  state := rfl
  hintsUsed := h.hintsUsed
  completed := by
    change (s.completed || s.mission.any _) = (t.completed || t.mission.any _)
    rw [h.completed, h.setup]
  recalls := by rw [recalls_moveTo hs, recalls_moveTo ht, h.recalls]

theorem afterLine (h : Alike s t) (text line : String) (now : Moment) :
    Alike (s.afterLine text line now) (t.afterLine text line now) := by
  obtain ⟨hanswer, halike⟩ := h.outcomeOf line now
  rw [Session.afterLine, Session.afterLine, hanswer, halike.state]
  exact halike.moveTo (hs.outcomeOf line now) (ht.outcomeOf line now) _

theorem accept (h : Alike s t) (o : Outcome) : Alike (s.accept o) (t.accept o) := by
  rw [Session.accept, Session.accept, h.state]
  exact h.moveTo hs ht _

omit hs ht in
theorem restart (h : Alike s t) : Alike s.restart t.restart :=
  ⟨h.setup, congrArg (fun c : Setup => initialState c.mission) h.setup, rfl, rfl, rfl⟩

omit hs ht in
theorem complete (h : Alike s t) (line : String) : Alike (s.complete line) (t.complete line) where
  setup := h.setup
  state := h.state
  hintsUsed := h.hintsUsed
  completed := h.completed
  recalls := by rw [recalls_complete, recalls_complete, h.state, h.recalls]

theorem step (h : Alike s t) (x : Step) :
    (s.step x).1 = (t.step x).1 ∧ Alike (s.step x).2 (t.step x).2 := by
  cases x with
  | run line now =>
    cases hp : t.prompt with
    | error e =>
      rw [step_run_of_error hp, step_run_of_error (h.agree.prompt.trans hp)]
      exact ⟨rfl, h⟩
    | ok text =>
      rw [step_run_of_prompt hp, step_run_of_prompt (h.agree.prompt.trans hp),
        (h.outcomeOf _ now).1]
      exact ⟨rfl, h.afterLine hs ht text _ now⟩
  | save content =>
    rw [step_save, step_save, h.state]
    exact ⟨rfl, h.accept hs ht _⟩
  | close => exact ⟨rfl, h.accept hs ht _⟩
  | hint =>
    obtain ⟨hanswer, halike⟩ := h.giveHint
    rw [step_hint, step_hint, hanswer]
    exact ⟨rfl, halike⟩
  | complete line =>
    have halike := h.complete line
    refine ⟨?_, halike⟩
    change Answer.suggestion (Completion.suggestion? (s.complete line).memory) =
      .suggestion (Completion.suggestion? (t.complete line).memory)
    rw [suggestion?_memory, suggestion?_memory, halike.recalls]
  | prompt =>
    refine ⟨?_, ?_⟩
    · unfold Session.step
      rw [h.agree.prompt]
      cases t.prompt <;> rfl
    · rw [step_prompt, step_prompt]
      exact h
  | restart =>
    rw [step_restart, step_restart, h.setup]
    exact ⟨rfl, h.restart⟩

end Alike

/-- How the states are numbered cannot be seen. -/
theorem watch_eq_of_alike (h : Alike s t) (hs : s.MarksPast) (ht : t.MarksPast) (xs : List Step) :
    s.watch xs = t.watch xs := by
  induction xs generalizing s t with
  | nil => rfl
  | cons x xs ih =>
    obtain ⟨hanswer, halike⟩ := h.step hs ht x
    have hview : Event.view ⟨s, x⟩ = Event.view ⟨t, x⟩ := by
      simp only [Event.view, Event.answer, Event.after, hanswer, halike.state, halike.hintsUsed,
        halike.completed]
    rw [watch_cons, watch_cons, hview, ih halike (hs.step x) (ht.step x)]

end Numbers

theorem restart_steps (mission : Option Mission) (config : Config) (objects : Prompt.Objects)
    (xs : List Step) :
    ((start mission config objects).steps xs).2.restart = start mission config objects := by
  unfold restart
  rw [setup_steps]
  rfl

/-- Whatever has been done in a session, after a restart it cannot be told from a new one; and no
matter which number the state after the restart is given. -/
theorem watch_restart (mission : Option Mission) (config : Config) (objects : Prompt.Objects)
    (xs ys : List Step) :
    let s := start mission config objects
    s.watch (xs ++ .restart :: ys) =
      s.watch xs ++ ⟨.restarted s.state, s.state, 0, false⟩ :: s.watch ys ∧
    ∀ revision, { (s.steps xs).2.restart with revision }.watch ys = s.watch ys := by
  intro s
  have hrestart : (s.steps xs).2.restart = s := restart_steps mission config objects xs
  constructor
  · have hview : Event.view ⟨(s.steps xs).2, .restart⟩ =
        ⟨.restarted s.state, s.state, 0, false⟩ :=
      congrArg (fun u : Session => View.mk (.restarted u.state) u.state u.hintsUsed u.completed)
        hrestart
    have hnext : ((s.steps xs).2.step .restart).2 = s := hrestart
    rw [watch_append, watch_cons, hview, hnext]
  · intro revision
    have halike : Alike { (s.steps xs).2.restart with revision } s := by
      rw [hrestart]
      exact ⟨rfl, rfl, rfl, rfl, rfl⟩
    refine watch_eq_of_alike halike ?_ ?_ ys
    · exact fun c hc => nomatch hc
    · exact fun c hc => nomatch hc

end Session

end PuzzleShell
